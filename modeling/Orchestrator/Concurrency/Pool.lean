import Orchestrator.Concurrency.Coroutine

namespace Concurrency
set_option autoImplicit true

/-- Processes of kinds `K`, whose coroutines share a world `σ`. A command is answered by the
world (`exec`) or cut short (`abort`); a process that returns may start over. -/
structure Machine (C : Type) (R : C → Type) (β σ K E : Type) where
  body : K → Coro C R β
  exec : Nat → (c : C) → R c → σ → σ → Prop
  abort : Nat → (c : C) → R c → σ → σ → Prop
  spawn : K → σ → σ → Prop
  exit : K → β → σ → σ → Option K → Prop
  env : E → σ → σ → Prop
  halt : σ → σ → Prop

inductive Label (C : Type) (R : C → Type) (β K E : Type) where
  | cmd (i : Nat) (c : C) (r : R c)
  | abort (i : Nat) (c : C) (r : R c)
  | spawn (i : Nat) (q : K)
  | exit (i : Nat) (q : K) (b : β)
  | env (e : E)
  | halt

structure Config (C : Type) (R : C → Type) (β σ K : Type) where
  world : σ
  pool : Nat → Option (K × Coro C R β)

def Config.idle (w : σ) : Config C R β σ K := ⟨w, fun _ => none⟩

inductive Machine.Answer (M : Machine C R β σ K E) (i : Nat) (c : C) (r : R c) (w w' : σ) :
    Label C R β K E → Prop where
  | cmd (h : M.exec i c r w w') : Answer M i c r w w' (.cmd i c r)
  | abort (h : M.abort i c r w w') : Answer M i c r w w' (.abort i c r)

inductive Machine.Step (M : Machine C R β σ K E) :
    Config C R β σ K → Label C R β K E → Config C R β σ K → Prop where
  | answer {s : Config C R β σ K} {i : Nat} {q : K} {c : C} {k : R c → Coro C R β} {r : R c}
      {w : σ} {l : Label C R β K E} (hp : s.pool i = some (q, .await c k))
      (ha : M.Answer i c r s.world w l) :
      Step M s l ⟨w, Function.update s.pool i (some (q, k r))⟩
  | spawn {s : Config C R β σ K} {i : Nat} {q : K} {w : σ} (hp : s.pool i = none)
      (hs : M.spawn q s.world w) :
      Step M s (.spawn i q) ⟨w, Function.update s.pool i (some (q, M.body q))⟩
  | exit {s : Config C R β σ K} {i : Nat} {q : K} {b : β} {w : σ} {o : Option K}
      (hp : s.pool i = some (q, .ret b)) (he : M.exit q b s.world w o) :
      Step M s (.exit i q b) ⟨w, Function.update s.pool i (o.map fun q' => (q', M.body q'))⟩
  | env {s : Config C R β σ K} {e : E} {w : σ} (he : M.env e s.world w) :
      Step M s (.env e) ⟨w, s.pool⟩
  | halt {s : Config C R β σ K} {w : σ} (hh : M.halt s.world w) :
      Step M s .halt ⟨w, fun _ => none⟩

/-- What is allowed of a step: the labels before it, the worlds around it and its own label. -/
abbrev StepFilter (C : Type) (R : C → Type) (β σ K E : Type) : Type :=
  List (Label C R β K E) → σ → Label C R β K E → σ → Prop

/-- Runs all of whose steps pass the filter. The labels are kept latest first. -/
inductive Run (M : Machine C R β σ K E) (ok : StepFilter C R β σ K E) (s₀ : Config C R β σ K) :
    List (Label C R β K E) → Config C R β σ K → Prop where
  | nil : Run M ok s₀ [] s₀
  | cons (hr : Run M ok s₀ tr s) (hs : M.Step s l s') (hok : ok tr s.world l s'.world) :
      Run M ok s₀ (l :: tr) s'

/-- A filter that every step of a filtered run passes can be added to it. -/
theorem Run.refine {M : Machine C R β σ K E} {ok ok' : StepFilter C R β σ K E}
    (h : ∀ tr s l s', Run M ok s₀ tr s → M.Step s l s' → ok tr s.world l s'.world →
      ok' tr s.world l s'.world)
    (hr : Run M ok s₀ tr s) : Run M ok' s₀ tr s := by
  induction hr with
  | nil => exact .nil
  | cons hr hs hok ih => exact .cons ih hs (h _ _ _ _ hr hs hok)

/-- Runs that go on from a reached configuration. -/
inductive Run.After (M : Machine C R β σ K E) (ok : StepFilter C R β σ K E)
    (tr : List (Label C R β K E)) (s : Config C R β σ K) :
    List (Label C R β K E) → Config C R β σ K → Prop where
  | refl : After M ok tr s tr s
  | cons (hr : After M ok tr s tr' s') (hs : M.Step s' l s'') (hok : ok tr' s'.world l s''.world) :
      After M ok tr s (l :: tr') s''

theorem Run.After.run {M : Machine C R β σ K E} {ok : StepFilter C R β σ K E}
    (h : Run.After M ok tr s tr' s') (hr : Run M ok s₀ tr s) : Run M ok s₀ tr' s' := by
  induction h with
  | refl => exact hr
  | cons _ hs hok ih => exact .cons ih hs hok

theorem Run.After.mono {M : Machine C R β σ K E} {ok ok' : StepFilter C R β σ K E}
    (h : Run.After M ok tr s tr' s') (hok : ∀ tr w l w', ok tr w l w' → ok' tr w l w') :
    Run.After M ok' tr s tr' s' := by
  induction h with
  | refl => exact .refl
  | cons _ hs ho ih => exact .cons ih hs (hok _ _ _ _ ho)

end Concurrency
