import Orchestrator.Concurrency.Pool

namespace Concurrency
set_option autoImplicit true

/-- An invariant over the labels so far, the world and a ghost value for each process, and a
guarantee of every step. The filter says which steps are considered. -/
structure Assertion (M : Machine C R β σ K E) (δ : Type) where
  ok : StepFilter C R β σ K E
  inv : List (Label C R β K E) → σ → (Nat → δ) → Prop
  guar : σ → Label C R β K E → σ → Prop

variable {M : Machine C R β σ K E}

/-- Process `i` may run `p` with ghost value `d`: every answer keeps the invariant, for some new
ghost value, and a result satisfies `Q`. Other processes may run between any two commands. -/
def Safe (A : Assertion M δ) (i : Nat) (Q : α → δ → Prop) : Coro C R α → δ → Prop
  | .ret a, d => Q a d
  | .await c k, d => ∀ tr w ds l r w', A.inv tr w ds → ds i = d → M.Answer i c r w w' l →
      A.ok tr w l w' → A.guar w l w' ∧
        ∃ d', A.inv (l :: tr) w' (Function.update ds i d') ∧ Safe A i Q (k r) d'

theorem Safe.mono {A : Assertion M δ} {p : Coro C R α} (hp : Safe A i Q p d)
    (h : ∀ a d, Q a d → Q' a d) : Safe A i Q' p d := by
  induction p generalizing d with
  | ret a => exact h a d hp
  | await c k ih =>
    intro tr w ds l r w' hi hd ha hok
    obtain ⟨hg, d', hi', hs⟩ := hp tr w ds l r w' hi hd ha hok
    exact ⟨hg, d', hi', ih r hs⟩

theorem Safe.bind {A : Assertion M δ} {p : Coro C R α} {f : α → Coro C R α'}
    (hp : Safe A i (fun a d => Safe A i Q (f a) d) p d) : Safe A i Q (p.bind f) d := by
  induction p generalizing d with
  | ret a => exact hp
  | await c k ih =>
    intro tr w ds l r w' hi hd ha hok
    obtain ⟨hg, d', hi', hs⟩ := hp tr w ds l r w' hi hd ha hok
    exact ⟨hg, d', hi', ih r hs⟩

/-- The commands in `S` leave the invariant and the ghost value `d` of process `i` as they are. -/
def Assertion.Frames (A : Assertion M δ) (i : Nat) (S : C → Prop) (d : δ) : Prop :=
  ∀ c, S c → ∀ tr w ds l r w', A.inv tr w ds → ds i = d → M.Answer i c r w w' l →
    A.ok tr w l w' → A.guar w l w' ∧ A.inv (l :: tr) w' ds

theorem Safe.of_leads {A : Assertion M δ} {p : Coro C R α} (hp : p.Leads S Q)
    (hS : A.Frames i S d) : Safe A i (fun a d' => Q a ∧ d' = d) p d := by
  induction p with
  | ret a => exact ⟨hp, rfl⟩
  | await c k ih =>
    intro tr w ds l r w' hi hd ha hok
    obtain ⟨hg, hi'⟩ := hS c hp.1 tr w ds l r w' hi hd ha hok
    refine ⟨hg, d, ?_, ih r (hp.2 r)⟩
    rwa [← hd, Function.update_eq_self]

theorem Safe.of_within {A : Assertion M δ} {p : Coro C R α} (hp : p.Within S)
    (hS : A.Frames i S d) : Safe A i (fun _ d' => d' = d) p d :=
  (Safe.of_leads hp.leads hS).mono fun _ _ h => h.2

/-- What the steps that no coroutine takes have to satisfy. `Post` is what a process of each
kind leaves behind, and `gone` the ghost value of a process that does not exist. -/
structure Assertion.Sound (A : Assertion M δ) (gone : δ) (Post : K → β → δ → Prop)
    (w₀ : σ) : Prop where
  start : A.inv [] w₀ fun _ => gone
  spawn : ∀ tr w ds i q w', A.inv tr w ds → ds i = gone → M.spawn q w w' →
    A.ok tr w (.spawn i q) w' → A.guar w (.spawn i q) w' ∧
      ∃ d, A.inv (.spawn i q :: tr) w' (Function.update ds i d) ∧ Safe A i (Post q) (M.body q) d
  exit : ∀ tr w ds i q b w' o, A.inv tr w ds → Post q b (ds i) → M.exit q b w w' o →
    A.ok tr w (.exit i q b) w' → A.guar w (.exit i q b) w' ∧
      match o with
      | none => A.inv (.exit i q b :: tr) w' (Function.update ds i gone)
      | some q' => ∃ d, A.inv (.exit i q b :: tr) w' (Function.update ds i d) ∧
          Safe A i (Post q') (M.body q') d
  env : ∀ tr w ds e w', A.inv tr w ds → M.env e w w' → A.ok tr w (.env e) w' →
    A.guar w (.env e) w' ∧ A.inv (.env e :: tr) w' ds
  halt : ∀ tr w ds w', A.inv tr w ds → M.halt w w' → A.ok tr w .halt w' →
    A.guar w .halt w' ∧ A.inv (.halt :: tr) w' fun _ => gone

/-- The invariant holds and every process may go on. -/
structure Assertion.Holds (A : Assertion M δ) (gone : δ) (Post : K → β → δ → Prop)
    (tr : List (Label C R β K E)) (s : Config C R β σ K) (ds : Nat → δ) : Prop where
  inv : A.inv tr s.world ds
  absent : ∀ i, s.pool i = none → ds i = gone
  safe : ∀ i q p, s.pool i = some (q, p) → Safe A i (Post q) p (ds i)

theorem Assertion.Holds.set {A : Assertion M δ} {gone : δ} {Post : K → β → δ → Prop}
    {s : Config C R β σ K} {ds : Nat → δ} (h : A.Holds gone Post tr s ds)
    (hi : A.inv tr' w (Function.update ds i d)) (x : Option (K × Coro C R β))
    (hn : x = none → d = gone) (hs : ∀ q p, x = some (q, p) → Safe A i (Post q) p d) :
    A.Holds gone Post tr' ⟨w, Function.update s.pool i x⟩ (Function.update ds i d) := by
  refine ⟨hi, fun j hj => ?_, fun j q p hj => ?_⟩
  · by_cases he : j = i
    · subst he
      simp only [Function.update_self] at hj ⊢
      exact hn hj
    · simp only [Function.update_of_ne he] at hj ⊢
      exact h.absent j hj
  · by_cases he : j = i
    · subst he
      simp only [Function.update_self] at hj ⊢
      exact hs q p hj
    · simp only [Function.update_of_ne he] at hj ⊢
      exact h.safe j q p hj

/-- One step of any process keeps the invariant and is in the guarantee. -/
theorem Assertion.Holds.step {A : Assertion M δ} {gone : δ} {Post : K → β → δ → Prop} {w₀ : σ}
    {s s' : Config C R β σ K} {ds : Nat → δ} {l : Label C R β K E}
    (hA : A.Sound gone Post w₀) (h : A.Holds gone Post tr s ds) (hs : M.Step s l s')
    (hok : A.ok tr s.world l s'.world) :
    A.guar s.world l s'.world ∧ ∃ ds', A.Holds gone Post (l :: tr) s' ds' := by
  cases hs with
  | @answer i q c k r w l hp ha =>
    obtain ⟨hg, d', hi, hsafe⟩ := h.safe i q _ hp tr s.world ds l r w h.inv rfl ha hok
    refine ⟨hg, _, h.set hi _ (fun hx => by cases hx) fun q' p hx => ?_⟩
    cases hx
    exact hsafe
  | @spawn i q w hp hsp =>
    obtain ⟨hg, d, hi, hsafe⟩ := hA.spawn tr s.world ds i q w h.inv (h.absent i hp) hsp hok
    refine ⟨hg, _, h.set hi _ (fun hx => by cases hx) fun q' p hx => ?_⟩
    cases hx
    exact hsafe
  | @exit i q b w o hp he =>
    obtain ⟨hg, ho⟩ := hA.exit tr s.world ds i q b w o h.inv (h.safe i q _ hp) he hok
    cases o with
    | none => exact ⟨hg, _, h.set ho none (fun _ => rfl) fun _ _ hx => by cases hx⟩
    | some q' =>
      obtain ⟨d, hi, hsafe⟩ := ho
      refine ⟨hg, _, h.set hi _ (fun hx => by cases hx) fun q'' p hx => ?_⟩
      cases hx
      exact hsafe
  | @env e w he =>
    obtain ⟨hg, hi⟩ := hA.env tr s.world ds e w h.inv he hok
    exact ⟨hg, ds, hi, h.absent, h.safe⟩
  | @halt w hh =>
    obtain ⟨hg, hi⟩ := hA.halt tr s.world ds w h.inv hh hok
    exact ⟨hg, _, hi, fun _ _ => rfl, fun _ _ _ hx => by cases hx⟩

theorem Assertion.Sound.holds {A : Assertion M δ} {gone : δ} {Post : K → β → δ → Prop} {w₀ : σ}
    (hA : A.Sound gone Post w₀) (hr : Run M A.ok (.idle w₀) tr s) :
    ∃ ds, A.Holds gone Post tr s ds := by
  induction hr with
  | nil => exact ⟨_, hA.start, fun _ _ => rfl, fun _ _ _ hx => by cases hx⟩
  | cons hr hs hok ih =>
    obtain ⟨ds, h⟩ := ih
    exact (h.step hA hs hok).2

theorem Assertion.Sound.inv {A : Assertion M δ} {gone : δ} {Post : K → β → δ → Prop} {w₀ : σ}
    (hA : A.Sound gone Post w₀) (hr : Run M A.ok (.idle w₀) tr s) : ∃ ds, A.inv tr s.world ds := by
  obtain ⟨ds, h⟩ := hA.holds hr
  exact ⟨ds, h.inv⟩

theorem Assertion.Sound.guar {A : Assertion M δ} {gone : δ} {Post : K → β → δ → Prop} {w₀ : σ}
    (hA : A.Sound gone Post w₀) (hr : Run M A.ok (.idle w₀) tr s) (hs : M.Step s l s')
    (hok : A.ok tr s.world l s'.world) : A.guar s.world l s'.world := by
  obtain ⟨ds, h⟩ := hA.holds hr
  exact (h.step hA hs hok).1

/-- A preorder that contains the guarantee relates the ends of every stretch of a run. -/
theorem Assertion.Sound.guar_after {A : Assertion M δ} {gone : δ} {Post : K → β → δ → Prop}
    {w₀ : σ} {R : σ → σ → Prop} (hA : A.Sound gone Post w₀)
    (hr : Run M A.ok (.idle w₀) tr s) (hrefl : ∀ w, R w w)
    (htrans : ∀ u v w, R u v → R v w → R u w) (hR : ∀ u l v, A.guar u l v → R u v)
    (ha : Run.After M A.ok tr s tr' s') : R s.world s'.world := by
  induction ha with
  | refl => exact hrefl _
  | cons ha hs hok ih => exact htrans _ _ _ ih (hR _ _ _ (hA.guar (ha.run hr) hs hok))

/-! Rules for asynchronous functions: `Q` is what holds when the function returns, `X` when it
raises. -/

section Wp
variable {P : C → Type} {ε S T : Type} {M : Machine C (fun c => Except ε (P c)) β σ K E}
  {A : Assertion M δ} {i : Nat}

def Outcome (Q : α → S → δ → Prop) (X : ε → S → δ → Prop) (o : Except ε α × S) (d : δ) : Prop :=
  match o with
  | (.ok a, s) => Q a s d
  | (.error e, s) => X e s d

def Wp (A : Assertion M δ) (i : Nat) (p : Async C P ε S α) (Q : α → S → δ → Prop)
    (X : ε → S → δ → Prop) (s : S) (d : δ) : Prop :=
  Safe A i (Outcome Q X) (p s) d

theorem Wp.mono {p : Async C P ε S α} (hp : Wp A i p Q X s d)
    (hQ : ∀ a s d, Q a s d → Q' a s d) (hX : ∀ e s d, X e s d → X' e s d) :
    Wp A i p Q' X' s d := by
  apply Safe.mono hp
  rintro ⟨o, s'⟩ d' ho
  cases o with
  | ok a => exact hQ a s' d' ho
  | error e => exact hX e s' d' ho

theorem Wp.pure (a : α) (h : Q a s d) : Wp A i (Pure.pure a : Async C P ε S α) Q X s d := h

theorem Wp.raise (e : ε) (h : X e s d) : Wp A i (Async.raise e : Async C P ε S α) Q X s d := h

theorem Wp.object (h : Q s s d) : Wp A i (Async.object : Async C P ε S S) Q X s d := h

theorem Wp.mutate (f : S → S) (h : Q () (f s) d) :
    Wp A i (Async.mutate f : Async C P ε S Unit) Q X s d := h

theorem Wp.bind {p : Async C P ε S α} {f : α → Async C P ε S α'}
    (hp : Wp A i p (fun a s d => Wp A i (f a) Q X s d) X s d) : Wp A i (p >>= f) Q X s d := by
  apply Safe.bind
  apply Safe.mono hp
  rintro ⟨o, s'⟩ d' ho
  cases o with
  | ok a => exact ho
  | error e => exact ho

theorem Wp.attempt {p : Async C P ε S α}
    (hp : Wp A i p (fun a s d => Q (.ok a) s d) (fun e s d => Q (.error e) s d) s d) :
    Wp A i (Async.attempt p) Q X s d := by
  apply Safe.bind
  apply Safe.mono hp
  rintro ⟨o, s'⟩ d' ho
  cases o with
  | ok a => exact ho
  | error e => exact ho

theorem Wp.ensure {p : Async C P ε S α} {q : Async C P ε S Unit}
    (hp : Wp A i p (fun a s d => Wp A i q (fun _ s d => Q a s d) X s d)
      (fun e s d => Wp A i q (fun _ s d => X e s d) X s d) s d) :
    Wp A i (Async.ensure p q) Q X s d := by
  apply Safe.bind
  apply Safe.mono hp
  rintro ⟨o, s'⟩ d' ho
  apply Safe.bind
  cases o with
  | ok a =>
    apply Safe.mono ho
    rintro ⟨o', s''⟩ d'' ho'
    cases o' with
    | ok _ => exact ho'
    | error e => exact ho'
  | error e =>
    apply Safe.mono ho
    rintro ⟨o', s''⟩ d'' ho'
    cases o' with
    | ok _ => exact ho'
    | error e' => exact ho'

theorem Wp.on {p : Async C P ε T α} (t : T)
    (hp : Wp A i p (fun a _ d => Q a s d) (fun e _ d => X e s d) t d) :
    Wp A i (Async.on t p) Q X s d := by
  apply Safe.bind
  apply Safe.mono hp
  rintro ⟨o, s'⟩ d' ho
  cases o with
  | ok a => exact ho
  | error e => exact ho

theorem Wp.call (c : C) {Q : P c → S → δ → Prop}
    (h : ∀ tr w ds l r w', A.inv tr w ds → ds i = d → M.Answer i c r w w' l → A.ok tr w l w' →
      A.guar w l w' ∧ ∃ d', A.inv (l :: tr) w' (Function.update ds i d') ∧
        Outcome Q X (r, s) d') :
    Wp A i (Async.call c : Async C P ε S (P c)) Q X s d := h

theorem Wp.of_within {p : Async C P ε S α} {W : C → Prop} (hp : Async.Within W p)
    (hW : A.Frames i W d) : Wp A i p (fun _ _ d' => d' = d) (fun _ _ d' => d' = d) s d := by
  apply Safe.mono (Safe.of_within (hp s) hW)
  rintro ⟨o, s'⟩ d' ho
  cases o <;> exact ho

theorem Wp.of_keeps {p : Async C P ε S α} {W : C → Prop} {I : S → Prop}
    (hp : Async.Keeps W I p) (hI : I s) (hW : A.Frames i W d) :
    Wp A i p (fun _ s' d' => I s' ∧ d' = d) (fun _ s' d' => I s' ∧ d' = d) s d := by
  apply Safe.mono (Safe.of_leads (hp s hI) hW)
  rintro ⟨o, s'⟩ d' ho
  cases o <;> exact ho

theorem Wp.start {p : Async C P ε S α} {Post : Except ε α → δ → Prop}
    (hp : Wp A i p (fun a _ d => Post (.ok a) d) (fun e _ d => Post (.error e) d) s d) :
    Safe A i Post (Async.start p s) d := by
  apply Safe.bind
  apply Safe.mono hp
  rintro ⟨o, s'⟩ d' ho
  cases o with
  | ok a => exact ho
  | error e => exact ho

end Wp

end Concurrency
