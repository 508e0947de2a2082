import Orchestrator.Concurrency.Pool

namespace Concurrency
set_option autoImplicit true

/-- As long as the replies satisfy `T`, the commands satisfy `S` and the result satisfies `Q`. -/
def Coro.Under {C : Type} {R : C → Type} (T : (c : C) → R c → Prop) (S : C → Prop) (Q : α → Prop) :
    Coro C R α → Prop
  | .ret a => Q a
  | .await c k => S c ∧ ∀ r, T c r → (k r).Under T S Q

theorem Coro.Under.mono {C : Type} {R : C → Type} {T : (c : C) → R c → Prop} {S : C → Prop}
    {p : Coro C R α} (hp : p.Under T S Q) (h : ∀ a, Q a → Q' a) : p.Under T S Q' := by
  induction p with
  | ret a => exact h a hp
  | await c k ih => exact ⟨hp.1, fun r hr => ih r (hp.2 r hr)⟩

theorem Coro.Under.bind {C : Type} {R : C → Type} {T : (c : C) → R c → Prop} {S : C → Prop}
    {p : Coro C R α} {f : α → Coro C R β} (hp : p.Under T S P)
    (hf : ∀ a, P a → (f a).Under T S Q) : (p.bind f).Under T S Q := by
  induction p with
  | ret a => exact hf a hp
  | await c k ih => exact ⟨hp.1, fun r hr => ih r (hp.2 r hr)⟩

/-- An invariant of the world under which every command that satisfies `S` gets a reply that
satisfies `T`, for processes whose commands satisfy `S` as long as the replies satisfy `T`. -/
structure Contract {C : Type} {R : C → Type} (M : Machine C R β σ K E) (ok : StepFilter C R β σ K E)
    (I : σ → Prop) (T : (c : C) → R c → Prop) (S : C → Prop) : Prop where
  body : ∀ q, (M.body q).Under T S fun _ => True
  answer : ∀ tr w i c r w' l, I w → S c → M.Answer i c r w w' l → ok tr w l w' → I w' ∧ T c r
  spawn : ∀ w q w', I w → M.spawn q w w' → I w'
  exit : ∀ w q b w' o, I w → M.exit q b w w' o → I w'
  env : ∀ w e w', I w → M.env e w w' → I w'
  halt : ∀ w w', I w → M.halt w w' → I w'

/-- The invariant holds, and every process keeps to the contract. -/
structure Contract.Kept {C : Type} {R : C → Type} (I : σ → Prop) (T : (c : C) → R c → Prop)
    (S : C → Prop) (s : Config C R β σ K) : Prop where
  inv : I s.world
  pool : ∀ i q p, s.pool i = some (q, p) → p.Under T S fun _ => True

section
variable {C : Type} {R : C → Type} {M : Machine C R β σ K E} {ok : StepFilter C R β σ K E}
  {I : σ → Prop} {T : (c : C) → R c → Prop} {S : C → Prop}

theorem Contract.Kept.set {s : Config C R β σ K} {w : σ} (h : Contract.Kept I T S s) (hw : I w)
    (i : Nat) (x : Option (K × Coro C R β))
    (hx : ∀ q p, x = some (q, p) → p.Under T S fun _ => True) :
    Contract.Kept I T S ⟨w, Function.update s.pool i x⟩ := by
  refine ⟨hw, fun j q p hp => ?_⟩
  dsimp only at hp
  by_cases hj : j = i
  · rw [hj, Function.update_self] at hp
    exact hx q p hp
  · rw [Function.update_of_ne hj] at hp
    exact h.pool j q p hp

theorem Contract.Kept.step {s s' : Config C R β σ K} {l : Label C R β K E}
    (hM : Contract M ok I T S) (h : Contract.Kept I T S s) (hs : M.Step s l s')
    (hok : ok tr s.world l s'.world) : Contract.Kept I T S s' := by
  cases hs with
  | @answer i q c k r w l hp ha =>
    have hk := h.pool i q _ hp
    obtain ⟨hw, hr⟩ := hM.answer tr s.world i c r w l h.inv hk.1 ha hok
    apply h.set hw i
    rintro _ _ ⟨⟩
    exact hk.2 r hr
  | @spawn i q w hp hsp =>
    apply h.set (hM.spawn s.world q w h.inv hsp) i
    rintro _ _ ⟨⟩
    exact hM.body q
  | @exit i q b w o hp he =>
    apply h.set (hM.exit s.world q b w o h.inv he) i
    intro q' p hx
    cases o with
    | none => cases hx
    | some q'' =>
      cases hx
      exact hM.body _
  | @env e w he => exact ⟨hM.env s.world e w h.inv he, h.pool⟩
  | @halt w hh => exact ⟨hM.halt s.world w h.inv hh, fun _ _ _ hp => by cases hp⟩

theorem Contract.kept {s : Config C R β σ K} (hM : Contract M ok I T S) (h₀ : I w₀)
    (hr : Run M ok (.idle w₀) tr s) : Contract.Kept I T S s := by
  induction hr with
  | nil => exact ⟨h₀, fun _ _ _ hp => by cases hp⟩
  | cons _ hs hok ih => exact ih.step hM hs hok

end

namespace Async
variable {P : C → Type}

/-- What holds of a reply that is not an exception. -/
def Replies (T : (c : C) → P c → Prop) (c : C) (r : Except ε (P c)) : Prop := ∀ a, r = .ok a → T c a

/-- As long as the replies satisfy `T`, the commands satisfy `S`, the object keeps `I`, and what is
returned satisfies `Q`. -/
def Under (T : (c : C) → P c → Prop) (S : C → Prop) (I : σ → Prop) (p : Async C P ε σ α)
    (Q : α → Prop) : Prop :=
  ∀ s, I s → (p s).Under (Replies T) S fun o => I o.2 ∧ ∀ a, o.1 = .ok a → Q a

section
variable {T : (c : C) → P c → Prop} {S : C → Prop} {I : σ → Prop} {p : Async C P ε σ α}
  {Q : α → Prop}

theorem Under.mono (hp : Under T S I p Q) (h : ∀ a, Q a → Q' a) : Under T S I p Q' :=
  fun s hs => (hp s hs).mono fun _ ho => ⟨ho.1, fun a ha => h a (ho.2 a ha)⟩

theorem Under.any (hp : Under T S I p Q) : Under T S I p fun _ => True :=
  hp.mono fun _ _ => trivial

theorem under_pure {a : α} (h : Q a) : Under T S I (Pure.pure a : Async C P ε σ α) Q := by
  intro s hs
  refine ⟨hs, fun b hb => ?_⟩
  cases hb
  exact h

theorem under_raise (e : ε) : Under T S I (raise e : Async C P ε σ α) Q :=
  fun _ hs => ⟨hs, fun _ ha => by cases ha⟩

theorem under_call {c : C} {Q : P c → Prop} (h : S c) (hQ : ∀ a, T c a → Q a) :
    Under T S I (call c : Async C P ε σ (P c)) Q := by
  intro s hs
  exact ⟨h, fun r hr => ⟨hs, fun a ha => hQ a (hr a ha)⟩⟩

theorem under_object : Under T S I (object : Async C P ε σ σ) I := by
  intro s hs
  refine ⟨hs, fun a ha => ?_⟩
  cases ha
  exact hs

theorem under_mutate {f : σ → σ} (h : ∀ s, I s → I (f s)) :
    Under T S I (mutate f : Async C P ε σ Unit) fun _ => True :=
  fun s hs => ⟨h s hs, fun _ _ => trivial⟩

theorem under_bind {f : α → Async C P ε σ β} {Q' : β → Prop} (hp : Under T S I p Q)
    (hf : ∀ a, Q a → Under T S I (f a) Q') : Under T S I (p >>= f) Q' := by
  intro s hs
  apply (hp s hs).bind
  rintro ⟨o, s'⟩ ⟨hs', ho⟩
  cases o with
  | ok a => exact hf a (ho a rfl) s' hs'
  | error e => exact ⟨hs', fun _ ha => by cases ha⟩

theorem under_seq {f : α → Async C P ε σ β} {Q : β → Prop} (hp : Under T S I p fun _ => True)
    (hf : ∀ a, Under T S I (f a) Q) : Under T S I (p >>= f) Q := under_bind hp fun a _ => hf a

theorem under_attempt {Q : Except ε α → Prop} (hp : Under T S I p fun a => Q (.ok a))
    (he : ∀ e, Q (.error e)) : Under T S I (attempt p) Q := by
  intro s hs
  apply (hp s hs).bind
  rintro ⟨o, s'⟩ ⟨hs', ho⟩
  refine ⟨hs', fun a ha => ?_⟩
  cases ha
  cases o with
  | ok a => exact ho a rfl
  | error e => exact he e

theorem under_attempt_any (hp : Under T S I p fun _ => True) :
    Under T S I (attempt p) fun _ => True := under_attempt hp fun _ => trivial

theorem under_ensure {q : Async C P ε σ Unit} (hp : Under T S I p Q)
    (hq : Under T S I q fun _ => True) : Under T S I (ensure p q) Q := by
  intro s hs
  apply (hp s hs).bind
  rintro o ⟨hs', ho⟩
  apply (hq o.2 hs').bind
  rintro ⟨o', s'⟩ ⟨hs'', -⟩
  cases o' with
  | ok _ => exact ⟨hs'', ho⟩
  | error e => exact ⟨hs'', fun _ ha => by cases ha⟩

theorem under_on {τ : Type} {J : τ → Prop} {q : Async C P ε τ α} {t : τ} (ht : J t)
    (hq : Under T S J q Q) : Under T S I (on t q : Async C P ε σ α) Q := by
  intro s hs
  apply (hq t ht).bind
  exact fun o ho => ⟨hs, ho.2⟩

theorem Under.start {s : σ} (hp : Under T S I p Q) (hs : I s) :
    (Async.start p s).Under (Replies T) S fun _ => True :=
  (hp s hs).bind fun _ _ => trivial

end

end Async

end Concurrency
