import Orchestrator.Concurrency.Pool

namespace Concurrency
set_option autoImplicit true

/-- A scheduler's choice of the next step. What the world answers is picked by a hint `X`. -/
inductive Choice (X K E : Type) where
  | cmd (i : Nat) (x : X)
  | abort (i : Nat) (x : X)
  | spawn (i : Nat) (q : K)
  | exit (i : Nat)
  | env (e : E)
  | halt

/-- Computed instances of the relations of a machine. -/
structure Driver (M : Machine C R β σ K E) (X : Type) where
  cmd : X → Nat → (c : C) → σ → Option (R c × σ)
  abort : X → Nat → (c : C) → σ → Option (R c × σ)
  spawn : K → σ → Option σ
  exit : K → β → σ → Option (σ × Option K)
  env : E → σ → Option σ
  halt : σ → Option σ
  cmd_exec : cmd x i c w = some (r, w') → M.exec i c r w w'
  abort_abort : abort x i c w = some (r, w') → M.abort i c r w w'
  spawn_spawn : spawn q w = some w' → M.spawn q w w'
  exit_exit : exit q b w = some (w', o) → M.exit q b w w' o
  env_env : env e w = some w' → M.env e w w'
  halt_halt : halt w = some w' → M.halt w w'

variable {M : Machine C R β σ K E}

/-- The same driver with aborts of its own. -/
def Driver.withAbort (D : Driver M X) (abort : X → Nat → (c : C) → σ → Option (R c × σ))
    (h : ∀ {x i c w r w'}, abort x i c w = some (r, w') → M.abort i c r w w') : Driver M X where
  cmd := D.cmd
  abort := abort
  spawn := D.spawn
  exit := D.exit
  env := D.env
  halt := D.halt
  cmd_exec := D.cmd_exec
  abort_abort := h
  spawn_spawn := D.spawn_spawn
  exit_exit := D.exit_exit
  env_env := D.env_env
  halt_halt := D.halt_halt

def Driver.step (D : Driver M X) (s : Config C R β σ K) :
    Choice X K E → Option (Label C R β K E × Config C R β σ K)
  | .cmd i x =>
    match s.pool i with
    | some (q, .await c k) =>
      (D.cmd x i c s.world).map fun o =>
        (.cmd i c o.1, ⟨o.2, Function.update s.pool i (some (q, k o.1))⟩)
    | _ => none
  | .abort i x =>
    match s.pool i with
    | some (q, .await c k) =>
      (D.abort x i c s.world).map fun o =>
        (.abort i c o.1, ⟨o.2, Function.update s.pool i (some (q, k o.1))⟩)
    | _ => none
  | .spawn i q =>
    match s.pool i with
    | none => (D.spawn q s.world).map fun w =>
        (.spawn i q, ⟨w, Function.update s.pool i (some (q, M.body q))⟩)
    | some _ => none
  | .exit i =>
    match s.pool i with
    | some (q, .ret b) => (D.exit q b s.world).map fun o =>
        (.exit i q b, ⟨o.1, Function.update s.pool i (o.2.map fun q' => (q', M.body q'))⟩)
    | _ => none
  | .env e => (D.env e s.world).map fun w => (.env e, ⟨w, s.pool⟩)
  | .halt => (D.halt s.world).map fun w => (.halt, ⟨w, fun _ => none⟩)

theorem Driver.step_sound (D : Driver M X) {s s' : Config C R β σ K} {l : Label C R β K E}
    {ch : Choice X K E} (h : D.step s ch = some (l, s')) : M.Step s l s' := by
  cases ch with
  | cmd i x =>
    simp only [Driver.step] at h
    split at h
    · rename_i q c k hp
      obtain ⟨⟨r, w⟩, ho, he⟩ := Option.map_eq_some_iff.1 h
      cases he
      exact .answer hp (.cmd (D.cmd_exec ho))
    · cases h
  | abort i x =>
    simp only [Driver.step] at h
    split at h
    · rename_i q c k hp
      obtain ⟨⟨r, w⟩, ho, he⟩ := Option.map_eq_some_iff.1 h
      cases he
      exact .answer hp (.abort (D.abort_abort ho))
    · cases h
  | spawn i q =>
    simp only [Driver.step] at h
    split at h
    · rename_i hp
      obtain ⟨w, ho, he⟩ := Option.map_eq_some_iff.1 h
      cases he
      exact .spawn hp (D.spawn_spawn ho)
    · cases h
  | exit i =>
    simp only [Driver.step] at h
    split at h
    · rename_i q b hp
      obtain ⟨⟨w, o⟩, ho, he⟩ := Option.map_eq_some_iff.1 h
      cases he
      exact .exit hp (D.exit_exit ho)
    · cases h
  | env e =>
    obtain ⟨w, ho, he⟩ := Option.map_eq_some_iff.1 h
    cases he
    exact .env (D.env_env ho)
  | halt =>
    obtain ⟨w, ho, he⟩ := Option.map_eq_some_iff.1 h
    cases he
    exact .halt (D.halt_halt ho)

/-- Follow the choices as long as every step passes the filter. -/
def Driver.drive (D : Driver M X) (ok : StepFilter C R β σ K E)
    [∀ tr w l w', Decidable (ok tr w l w')] :
    List (Choice X K E) → List (Label C R β K E) × Config C R β σ K →
      Option (List (Label C R β K E) × Config C R β σ K)
  | [], s => some s
  | ch :: chs, s =>
    match D.step s.2 ch with
    | some o => if ok s.1 s.2.world o.1 o.2.world then D.drive ok chs (o.1 :: s.1, o.2) else none
    | none => none

theorem Driver.drive_run (D : Driver M X) {ok : StepFilter C R β σ K E}
    [∀ tr w l w', Decidable (ok tr w l w')] {s₀ : Config C R β σ K} {chs : List (Choice X K E)}
    {s t : List (Label C R β K E) × Config C R β σ K} (h : D.drive ok chs s = some t)
    (hr : Run M ok s₀ s.1 s.2) : Run M ok s₀ t.1 t.2 := by
  induction chs generalizing s with
  | nil =>
    cases h
    exact hr
  | cons ch chs ih =>
    simp only [Driver.drive] at h
    split at h
    · rename_i o ho
      split at h
      · rename_i hok
        exact ih h (.cons hr (D.step_sound ho) hok)
      · cases h
    · cases h

/-- Computed steps of a machine, one for each choice at most. -/
structure Stepper (M : Machine C R β σ K E) (Y : Type) where
  next : Y → Config C R β σ K → Option (Label C R β K E × Config C R β σ K)
  sound : next y s = some (l, s') → M.Step s l s'

def Driver.stepper (D : Driver M X) : Stepper M (Choice X K E) where
  next ch s := D.step s ch
  sound := D.step_sound

def Stepper.follow (N : Stepper M Y) (ok : StepFilter C R β σ K E)
    [∀ tr w l w', Decidable (ok tr w l w')] :
    List Y → List (Label C R β K E) × Config C R β σ K →
      Option (List (Label C R β K E) × Config C R β σ K)
  | [], s => some s
  | y :: ys, s =>
    match N.next y s.2 with
    | some o => if ok s.1 s.2.world o.1 o.2.world then N.follow ok ys (o.1 :: s.1, o.2) else none
    | none => none

theorem Stepper.follow_after (N : Stepper M Y) {ok : StepFilter C R β σ K E}
    [∀ tr w l w', Decidable (ok tr w l w')] {tr₀ : List (Label C R β K E)}
    {s₀ : Config C R β σ K} {ys : List Y} {s t : List (Label C R β K E) × Config C R β σ K}
    (h : N.follow ok ys s = some t) (hr : Run.After M ok tr₀ s₀ s.1 s.2) :
    Run.After M ok tr₀ s₀ t.1 t.2 := by
  induction ys generalizing s with
  | nil =>
    cases h
    exact hr
  | cons y ys ih =>
    simp only [Stepper.follow] at h
    split at h
    · rename_i o ho
      split at h
      · rename_i hok
        exact ih h (.cons hr (N.sound ho) hok)
      · cases h
    · cases h

/-- What is computed at the end of a schedule holds at the end of a run. -/
theorem Stepper.observe (N : Stepper M Y) (ok : StepFilter C R β σ K E)
    [∀ tr w l w', Decidable (ok tr w l w')] (s₀ : Config C R β σ K) (ys : List Y)
    (f : List (Label C R β K E) × Config C R β σ K → Option γ) {c : γ}
    (h : (N.follow ok ys ([], s₀)).bind f = some c) :
    ∃ tr s, Run M ok s₀ tr s ∧ f (tr, s) = some c := by
  obtain ⟨⟨tr, s⟩, hd, hf⟩ := Option.bind_eq_some_iff.1 h
  exact ⟨tr, s, (N.follow_after hd .refl).run .nil, hf⟩

/-- The same for a schedule in two parts, the second of which has a filter of its own. -/
theorem Stepper.observe_after (N : Stepper M Y) (ok ok' : StepFilter C R β σ K E)
    [∀ tr w l w', Decidable (ok tr w l w')] [∀ tr w l w', Decidable (ok' tr w l w')]
    (s₀ : Config C R β σ K) (ys ys' : List Y)
    (f : List (Label C R β K E) × Config C R β σ K →
      List (Label C R β K E) × Config C R β σ K → Option γ) {c : γ}
    (h : ((N.follow ok ys ([], s₀)).bind fun o => (N.follow ok' ys' o).bind (f o)) = some c) :
    ∃ tr s tr' s', Run M ok s₀ tr s ∧ Run.After M ok' tr s tr' s' ∧
      f (tr, s) (tr', s') = some c := by
  obtain ⟨⟨tr, s⟩, hd, hf⟩ := Option.bind_eq_some_iff.1 h
  obtain ⟨⟨tr', s'⟩, hd', hf⟩ := Option.bind_eq_some_iff.1 hf
  exact ⟨tr, s, tr', s', (N.follow_after hd .refl).run .nil, N.follow_after hd' .refl, hf⟩

/-- What is computed at the end of a schedule holds at the end of a run. -/
theorem Driver.drive_observe (D : Driver M X) (ok : StepFilter C R β σ K E)
    [∀ tr w l w', Decidable (ok tr w l w')] (s₀ : Config C R β σ K) (chs : List (Choice X K E))
    (f : List (Label C R β K E) × Config C R β σ K → Option γ) {c : γ}
    (h : (D.drive ok chs ([], s₀)).bind f = some c) :
    ∃ tr s, Run M ok s₀ tr s ∧ f (tr, s) = some c := by
  obtain ⟨⟨tr, s⟩, hd, hf⟩ := Option.bind_eq_some_iff.1 h
  exact ⟨tr, s, D.drive_run hd .nil, hf⟩

end Concurrency
