import Orchestrator.Concurrency.Monitor

namespace Concurrency
set_option autoImplicit true

/-- On no path do more than `n` commands satisfy `P`. -/
def Coro.AtMost {C : Type} {R : C → Type} (P : C → Bool) : Coro C R α → Nat → Prop
  | .ret _, _ => True
  | .await c k, n => if P c then ∃ m, n = m + 1 ∧ ∀ r, (k r).AtMost P m else ∀ r, (k r).AtMost P n

namespace Coro
variable {C : Type} {R : C → Type} {P : C → Bool} {m n : Nat}

theorem AtMost.mono {p : Coro C R α} (hp : p.AtMost P m) (h : m ≤ n) : p.AtMost P n := by
  induction p generalizing m n with
  | ret a => trivial
  | await c k ih =>
    rw [AtMost] at hp ⊢
    split at hp
    · rename_i hc
      obtain ⟨m, rfl, hk⟩ := hp
      cases n with
      | zero => cases h
      | succ n =>
        rw [if_pos hc]
        exact ⟨n, rfl, fun r => ih r (hk r) (Nat.le_of_succ_le_succ h)⟩
    · rename_i hc
      rw [if_neg hc]
      exact fun r => ih r (hp r) h

theorem AtMost.bind {p : Coro C R α} {f : α → Coro C R β} (hp : p.AtMost P m)
    (hf : ∀ a, (f a).AtMost P n) : (p.bind f).AtMost P (m + n) := by
  induction p generalizing m with
  | ret a => exact (hf a).mono (Nat.le_add_left n m)
  | await c k ih =>
    rw [AtMost] at hp
    rw [Coro.bind, AtMost]
    split at hp
    · rename_i hc
      obtain ⟨m, rfl, hk⟩ := hp
      rw [if_pos hc]
      exact ⟨m + n, Nat.succ_add m n, fun r => ih r (hk r)⟩
    · rename_i hc
      rw [if_neg hc]
      exact fun r => ih r (hp r)

theorem atMost_of_within {p : Coro C R α} (hp : p.Within fun c => P c = false) :
    p.AtMost P n := by
  induction p with
  | ret a => trivial
  | await c k ih =>
    rw [AtMost, if_neg (Bool.eq_false_iff.1 hp.1)]
    exact fun r => ih r (hp.2 r)

end Coro

namespace Async
variable {P : C → Type} {W : C → Bool} {p : Async C P ε S α} {m n : Nat}

/-- The same of an asynchronous function, on any object. -/
def AtMost (W : C → Bool) (n : Nat) (p : Async C P ε S α) : Prop := ∀ s, (p s).AtMost W n

theorem atMost_of_within (hp : Within (fun c => W c = false) p) : AtMost W n p :=
  fun s => Coro.atMost_of_within (hp s)

theorem atMost_call (c : C) : AtMost W 1 (call c : Async C P ε S (P c)) := by
  intro s
  show Coro.AtMost W (.await c _) 1
  rw [Coro.AtMost]
  split
  · exact ⟨0, rfl, fun _ => trivial⟩
  · exact fun _ => trivial

theorem atMost_bind {f : α → Async C P ε S β} (hp : AtMost W m p) (hf : ∀ a, AtMost W n (f a)) :
    AtMost W (m + n) (p >>= f) := by
  intro s
  apply (hp s).bind
  rintro ⟨o, s'⟩
  cases o with
  | ok a => exact hf a s'
  | error e => trivial

theorem AtMost.start (hp : AtMost W n p) (s : S) : (Async.start p s).AtMost W n := by
  apply (hp s).bind (n := 0)
  exact fun _ => trivial

end Async

/-- The commands of process `i` that satisfy `P`. -/
def spent {C : Type} {R : C → Type} (P : C → Bool) (i : Nat) : List (Label C R β K E) → Nat
  | [] => 0
  | .cmd j c _ :: tr | .abort j c _ :: tr =>
    if j = i ∧ P c = true then spent P i tr + 1 else spent P i tr
  | _ :: tr => spent P i tr

/-- The same since the process was started. -/
def spending {C : Type} (R : C → Type) (P : C → Bool) : Monitor C R Nat where
  init := 0
  cmd n c _ := if P c then n + 1 else n
  abort n c _ := if P c then n + 1 else n

section
variable {C : Type} {R : C → Type} {M : Machine C R β σ K E} {P : C → Bool} {cost : K → Nat}
  {tr : List (Label C R β K E)} {s s' : Config C R β σ K} {l : Label C R β K E} {i n : Nat}

/-- What a process may still spend after `n` commands, where one of kind `q` may spend `cost q`. -/
def spare (cost : K → Nat) (n : Nat) : Option (K × Coro C R β) → Nat
  | some (q, _) => cost q - n
  | none => 0

/-- A process has kept to its budget in `n` commands, and keeps to it. -/
def Solvent (P : C → Bool) (cost : K → Nat) (n : Nat) (x : Option (K × Coro C R β)) : Prop :=
  ∀ q p, x = some (q, p) → n ≤ cost q ∧ p.AtMost P (cost q - n)

theorem solvent_none : Solvent P cost n (none : Option (K × Coro C R β)) := fun _ _ h => nomatch h

theorem solvent_start (hM : ∀ q, (M.body q).AtMost P (cost q)) (o : Option K) :
    Solvent P cost 0 (o.map fun q => (q, M.body q)) := by
  rintro q p hp
  obtain ⟨q', -, he⟩ := Option.map_eq_some_iff.1 hp
  cases he
  exact ⟨Nat.zero_le _, hM q⟩

/-- A command is paid for. -/
theorem solvent_await {q : K} {c : C} {k : R c → Coro C R β}
    (h : Solvent P cost n (some (q, .await c k))) (r : R c) :
    Solvent P cost (if P c then n + 1 else n) (some (q, k r)) ∧
      spare cost (if P c then n + 1 else n) (some (q, k r)) + (if P c then 1 else 0) =
        spare cost n (some (q, .await c k)) := by
  obtain ⟨hn, hp⟩ := h q _ rfl
  rw [Coro.AtMost] at hp
  split at hp
  · rename_i hc
    obtain ⟨m, hm, hk⟩ := hp
    simp only [if_pos hc, spare]
    refine ⟨?_, by omega⟩
    rintro _ _ ⟨⟩
    refine ⟨by omega, ?_⟩
    rw [show cost q - (n + 1) = m by omega]
    exact hk r
  · rename_i hc
    simp only [if_neg hc, spare]
    refine ⟨?_, rfl⟩
    rintro _ _ ⟨⟩
    exact ⟨hn, hp r⟩

/-- Every process has kept to its budget so far, and keeps to it. -/
def AllSolvent (P : C → Bool) (cost : K → Nat) (tr : List (Label C R β K E))
    (s : Config C R β σ K) : Prop :=
  ∀ i, Solvent P cost ((spending R P).read i tr) (s.pool i)

theorem AllSolvent.update {x : Option (K × Coro C R β)} {w : σ} (h : AllSolvent P cost tr s)
    (hi : Solvent P cost ((spending R P).read i (l :: tr)) x)
    (hj : ∀ j, j ≠ i → (spending R P).read j (l :: tr) = (spending R P).read j tr) :
    AllSolvent P cost (l :: tr) ⟨w, Function.update s.pool i x⟩ := by
  intro j
  show Solvent P cost _ (Function.update s.pool i x j)
  by_cases hji : j = i
  · rw [hji, Function.update_self]
    exact hi
  · rw [hj j hji, Function.update_of_ne hji]
    exact h j

theorem AllSolvent.step (hM : ∀ q, (M.body q).AtMost P (cost q)) (h : AllSolvent P cost tr s)
    (hs : M.Step s l s') : AllSolvent P cost (l :: tr) s' := by
  cases hs with
  | answer hp ha =>
    rename_i i q c k r _
    have hi := (solvent_await (hp ▸ h i) r).1
    cases ha with
    | cmd _ | abort _ =>
      apply h.update
      · rw [Monitor.read, if_pos rfl]
        exact hi
      · exact fun j hj => by rw [Monitor.read, if_neg (Ne.symm hj)]
  | spawn hp _ =>
    apply h.update
    · rw [Monitor.read, if_pos rfl]
      exact solvent_start hM (some _)
    · exact fun j hj => by rw [Monitor.read, if_neg (Ne.symm hj)]
  | exit hp _ =>
    apply h.update
    · rw [Monitor.read, if_pos rfl]
      exact solvent_start hM _
    · exact fun j hj => by rw [Monitor.read, if_neg (Ne.symm hj)]
  | env _ => exact h
  | halt _ => exact fun _ => solvent_none

theorem allSolvent_of_run {ok : StepFilter C R β σ K E} (hM : ∀ q, (M.body q).AtMost P (cost q))
    (hr : Run M ok (.idle w₀) tr s) : AllSolvent P cost tr s := by
  induction hr with
  | nil => exact fun _ => solvent_none
  | cons _ hs _ ih => exact ih.step hM hs

/-- Nothing that costs is started. -/
structure Machine.Frugal (M : Machine C R β σ K E) (cost : K → Nat) (w : σ)
    (l : Label C R β K E) : Prop where
  spawn : ∀ i q, l = .spawn i q → cost q = 0
  exit : ∀ q b w' o, M.exit q b w w' o → ∀ q' ∈ o, cost q' = 0

theorem spare_frugal {o : Option K} (h : ∀ q ∈ o, cost q = 0) (n : Nat) :
    spare cost n (o.map fun q => (q, M.body q)) = 0 := by
  cases o with
  | none => rfl
  | some q => exact (congrArg (· - n) (h q rfl)).trans (Nat.zero_sub n)

/-- What a process has spent and may still spend is never more than before. -/
theorem AllSolvent.balance (h : AllSolvent P cost tr s) (hs : M.Step s l s')
    (hf : M.Frugal cost s.world l) (i : Nat) :
    spent P i (l :: tr) + spare cost ((spending R P).read i (l :: tr)) (s'.pool i) ≤
      spent P i tr + spare cost ((spending R P).read i tr) (s.pool i) := by
  have hstart {j : Nat} {o : Option K} (ho : ∀ q ∈ o, cost q = 0) :
      spent P i tr + spare cost (if j = i then 0 else (spending R P).read i tr)
        (Function.update s.pool j (o.map fun q => (q, M.body q)) i) ≤
      spent P i tr + spare cost ((spending R P).read i tr) (s.pool i) := by
    by_cases hj : j = i
    · rw [hj, Function.update_self, spare_frugal ho]
      exact Nat.le_add_right _ _
    · apply Nat.le_of_eq
      rw [if_neg hj, Function.update_of_ne (Ne.symm hj)]
  cases hs with
  | @answer j q c k r w l hp ha =>
    have hb := (solvent_await (hp ▸ h j) r).2
    cases ha with
    | cmd _ | abort _ =>
      show spent P i (_ :: tr) + spare cost _ (Function.update s.pool j _ i) ≤ _
      rw [spent, Monitor.read]
      by_cases hj : j = i
      · subst hj
        rw [Function.update_self, hp, ← hb]
        simp only [spending, true_and, ↓reduceIte]
        split <;> omega
      · apply Nat.le_of_eq
        rw [if_neg hj, if_neg fun hc => hj hc.1, Function.update_of_ne (Ne.symm hj)]
  | spawn hp _ =>
    exact hstart (o := some _) fun _ ho => Option.some.inj ho ▸ hf.spawn _ _ rfl
  | exit hp he => exact hstart (hf.exit _ _ _ _ he)
  | env _ => exact Nat.le_refl _
  | halt _ => exact Nat.le_add_right _ _

end

end Concurrency
