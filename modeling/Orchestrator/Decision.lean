import Orchestrator.Coherence

namespace Orchestrator
open Concurrency Async
set_option autoImplicit true

/-- The decision table: is there a requirement, does the project exist, does a checkpoint exist? -/
def decisionTable : Bool → Bool → Bool → Option TaskMode
  | false, _, true => some .resume
  | false, _, false => none
  | true, false, _ => some .new
  | true, true, true => some .resume
  | true, true, false => some .secondary

/-- What a worker has found out since it took its task from the queue: the answers to the two
checks, and the project that the state tracker was set to. -/
structure Findings where
  task : Option Task
  project : Bool
  selected : Option String
  checkpoint : Bool

/-- A check that raises counts as no. -/
def affirmed : Except Exc Bool → Bool
  | .ok b => b
  | .error _ => false

namespace Findings

def none : Findings := ⟨.none, false, .none, false⟩

def of (t : Option Task) : Findings := ⟨t, false, .none, false⟩

/-- What the table says of the task. -/
def decides (d : Findings) (t : Task) : Option TaskMode :=
  decisionTable (t.requirement ≠ "") d.project d.checkpoint

end Findings

section
variable [TaskJson Text]

def Findings.after (d : Findings) : (c : Cmd Text Event) → c.Answer → Findings
  | .brpop, .ok (some x) => .of (parse x)
  | .projectExists _, r => { d with project := affirmed r }
  | .setProjectName p, .ok _ => { d with selected := some p }
  | .setProjectName _, .error _ => { d with selected := .none }
  | .checkpointExists _, r => { d with checkpoint := affirmed r }
  | _, _ => d

def findings (Text : Type) [TaskJson Text] (Event : Type) :
    Monitor (Cmd Text Event) Cmd.Answer Findings where
  init := .none
  cmd := Findings.after
  abort := Findings.after

/-- The checks are about the project of the task that was taken, and the stream is that of the task,
in the mode that the table gives for the answers. Only a task that was taken so is ever written as
running, and in that mode. -/
def Directed (d : Findings) : (c : Cmd Text Event) → c.Answer → Prop
  | .projectExists p, _ => ∃ t ∈ d.task, t.projectName = p ∧ t.requirement ≠ ""
  | .setProjectName p, _ => ∃ t ∈ d.task, t.projectName = p
  | .checkpointExists p, _ => ∃ t ∈ d.task, t.projectName = p ∧ d.selected = some p
  | .iterEvents mode p requirement, _ => ∃ t ∈ d.task, t.projectName = p ∧
      t.requirement = requirement ∧ d.decides t = some mode
  | .set _ x, _ => ∀ u, parse x = some u → u.status = .running →
      ∃ t ∈ d.task, u.projectName = t.projectName ∧ d.decides t = some u.mode
  | _, _ => True

/-- Commands that say nothing of a decision. -/
def Cmd.neutral : Cmd Text Event → Bool
  | .brpop | .projectExists _ | .setProjectName _ | .checkpointExists _ | .iterEvents ..
  | .set .. => false
  | _ => true

theorem directed_of_neutral {c : Cmd Text Event} (hc : c.neutral = true) (d : Findings)
    (r : c.Answer) : Directed d c r := by
  cases c with
  | brpop | projectExists _ | setProjectName _ | checkpointExists _ | iterEvents _ _ _
  | set _ _ => cases hc
  | _ => trivial

theorem after_of_neutral {c : Cmd Text Event} (hc : c.neutral = true) (d : Findings)
    (r : c.Answer) : d.after c r = d := by
  cases c with
  | brpop | projectExists _ | setProjectName _ | checkpointExists _ | iterEvents _ _ _
  | set _ _ => cases hc
  | _ => rfl

abbrev deciding (Text : Type) [TaskJson Text] (S : Setup Event)
    (sp : Kind → World Text Event → World Text Event → Prop)
    (ex : Kind → Except Exc Returned → World Text Event → World Text Event → Option Kind → Prop) :
    Assertion (orchestrator Text S sp ex) Findings :=
  (findings Text Event).demanding (orchestrator Text S sp ex) Directed

namespace Decision
variable {S : Setup Event} {sp : Kind → World Text Event → World Text Event → Prop}
  {ex : Kind → Except Exc Returned → World Text Event → World Text Event → Option Kind → Prop}
  {i : Nat} {d : Findings} {t : Task}

theorem wp_ask {c : Cmd Text Event} {Q : c.Reply → σ → Findings → Prop}
    {X : Exc → σ → Findings → Prop} (hd : ∀ r, Directed d c r)
    (hQ : ∀ a, Q a s (d.after c (.ok a)))
    (hX : ∀ e, c.raises e → X e s (d.after c (.error e))) :
    Wp (deciding Text S sp ex) i (ask c) Q X s d := by
  have hout {r : c.Answer} {w w' : World Text Event} {l : SysLabel Text Event}
      (ha : (orchestrator Text S sp ex).Answer i c r w w' l) :
      Outcome Q X (r, s) (d.after c r) := by
    cases r with
    | ok a => exact hQ a
    | error e => exact hX e (raises_of_answer ha)
  apply Monitor.wp_demanded hd
  · exact fun r w w' h => hout (.cmd h)
  · exact fun r w w' h => hout (.abort h)

theorem wp_neutral {c : Cmd Text Event} (hc : c.neutral = true)
    {Q : c.Reply → σ → Findings → Prop} {X : Exc → σ → Findings → Prop} (hQ : ∀ a, Q a s d)
    (hX : ∀ e, c.raises e → X e s d) : Wp (deciding Text S sp ex) i (ask c) Q X s d := by
  apply wp_ask fun r => directed_of_neutral hc d r
  · intro a
    rw [after_of_neutral hc]
    exact hQ a
  · intro e he
    rw [after_of_neutral hc]
    exact hX e he

theorem wp_transition {st : TaskStatus} {detail : String}
    {Q : Unit → Task → Findings → Prop} {X : Exc → Task → Findings → Prop}
    (hQ : ∀ now, Q () (t.transition now st detail) d) :
    Wp (deciding Text S sp ex) i (Worker.transition st detail) Q X t d := by
  apply Wp.bind
  apply wp_neutral rfl
  · exact fun now => Wp.mutate _ (hQ now)
  · exact fun _ he => absurd he (not_raises_of_sure rfl rfl)

theorem wp_update {Q : Unit → Task → Findings → Prop} {X : Exc → Task → Findings → Prop}
    (hd : t.status = .running →
      ∃ u ∈ d.task, t.projectName = u.projectName ∧ d.decides u = some t.mode)
    (hQ : Q () t d) (hX : ∀ e, e.cls = .other → X e t d) :
    Wp (deciding Text S sp ex) i (Worker.update S) Q X t d := by
  apply Wp.bind
  apply Wp.object
  apply Wp.bind
  apply wp_ask
  · intro r v hv hs
    rw [parse_dump] at hv
    obtain rfl := Option.some.inj hv
    exact hd hs
  · intro _
    split
    · apply wp_neutral rfl
      · exact fun _ => hQ
      · exact fun e he => hX e (other_of_raises rfl (by exact not_false) he)
    · exact Wp.pure _ hQ
  · exact fun e he => hX e (other_of_raises rfl (by exact not_false) he)

/-- What is left of an execution says nothing of a decision any more. -/
def Rest (S : Setup Event) (sp : Kind → World Text Event → World Text Event → Prop)
    (ex : Kind → Except Exc Returned → World Text Event → World Text Event → Option Kind → Prop)
    (i : Nat) (d : Findings) (p : Py Text Event Task α) : Prop :=
  ∀ t, Wp (deciding Text S sp ex) i p (fun _ _ d' => d' = d) (fun _ _ d' => d' = d) t d

theorem rest_ask {c : Cmd Text Event} (hc : c.neutral = true) : Rest S sp ex i d (ask c) :=
  fun _ => wp_neutral hc (fun _ => rfl) fun _ _ => rfl

theorem Rest.bind {p : Py Text Event Task α} {f : α → Py Text Event Task β}
    (hp : Rest S sp ex i d p) (hf : ∀ a, Rest S sp ex i d (f a)) : Rest S sp ex i d (p >>= f) := by
  intro t
  apply Wp.bind
  apply Wp.mono (hp t)
  · rintro a s _ rfl
    exact hf a s
  · exact fun _ _ _ h => h

theorem rest_raise (e : Exc) : Rest S sp ex i d (raise e : Py Text Event Task α) :=
  fun _ => Wp.raise _ rfl

theorem rest_close : Rest S sp ex i d (Worker.close : Py Text Event Task _) :=
  fun _ => Wp.bind (Wp.object (rest_ask rfl _))

/-- A record that does not run is written. -/
theorem rest_settle (st : TaskStatus) {detail : String} (hst : st ≠ .running)
    {p : Py Text Event Task Unit} (hp : Rest S sp ex i d p) :
    Rest S sp ex i d (do
      Worker.transition st detail
      Worker.update S
      p) := by
  intro t
  apply Wp.bind
  apply wp_transition
  intro now
  apply Wp.bind
  apply wp_update
  · exact fun hs => absurd hs hst
  · exact hp _
  · exact fun _ _ => rfl

theorem rest_reject (detail : String) :
    Rest S sp ex i d (Worker.reject S detail : Py Text Event Task _) :=
  rest_settle .failed (by decide) rest_close

theorem rest_handleRetriable (exc : Exc) :
    Rest S sp ex i d (Worker.handleRetriable S exc : Py Text Event Task _) := by
  have henqueue : Rest S sp ex i d (do
      let task ← object
      TaskQueue.enqueue task : Py Text Event Task _) :=
    fun _ => Wp.bind (Wp.object (rest_ask rfl _))
  intro t
  apply Wp.bind
  apply Wp.object
  split
  · apply Wp.bind
    apply Wp.mutate
    exact rest_settle .interrupted (by decide) henqueue _
  · exact rest_reject _ t

theorem wp_stream {mode : TaskMode} {u : Task} (hu : d.task = some u)
    (hp : u.projectName = t.projectName) (hr : u.requirement = t.requirement)
    (hm : d.decides u = some mode) :
    Wp (deciding Text S sp ex) i (Worker.stream S mode) (fun _ _ d' => d' = d)
      (fun _ _ d' => d' = d) t d := by
  apply Wp.bind
  apply Wp.object
  apply Wp.bind
  apply wp_ask
  · exact fun _ => ⟨u, hu, hp, hr, hm⟩
  · intro it
    refine Rest.bind (rest_ask rfl) (fun n s => ?_) t
    apply Wp.bind
    apply Wp.attempt
    apply wp_neutral rfl
    · exact fun _ => Wp.pure _ rfl
    · intro e _
      dsimp only
      split
      · exact Wp.raise _ rfl
      · exact Wp.raise _ rfl
  · exact fun _ _ => rfl

theorem wp_attemptStream {mode : TaskMode} {u : Task} (hu : d.task = some u)
    (hp : u.projectName = t.projectName) (hr : u.requirement = t.requirement)
    (hm : d.decides u = some mode) :
    Wp (deciding Text S sp ex) i (Worker.attemptStream S mode) (fun _ _ d' => d' = d)
      (fun _ _ d' => d' = d) t d := by
  apply Wp.bind
  apply Wp.attempt
  have htry : Wp (deciding Text S sp ex) i (do
      Worker.stream S mode
      Worker.transition .success ""
      Worker.update S) (fun _ _ d' => d' = d) (fun _ _ d' => d' = d) t d := by
    apply Wp.bind
    apply Wp.mono (wp_stream hu hp hr hm)
    · rintro _ s _ rfl
      apply Wp.bind
      apply wp_transition
      intro now
      apply wp_update
      · exact fun hs => nomatch hs
      · rfl
      · exact fun _ _ => rfl
    · exact fun _ _ _ h => h
  apply Wp.mono htry
  · rintro _ s _ rfl
    exact rest_close s
  · rintro e s _ rfl
    dsimp only
    split
    case h_1 => exact rest_reject _ s
    case h_2 => exact rest_close.bind (fun _ => rest_handleRetriable e) s
    case h_3 | h_4 => exact Wp.raise _ rfl
    case h_5 =>
      exact rest_settle .interrupted (by decide) (rest_close.bind fun _ => rest_raise e) s
    case h_6 => exact rest_reject _ s

theorem wp_hasCheckpoint (hd : d.task = some t) (hc : d.checkpoint = false)
    {Q : Bool → Task → Findings → Prop} {X : Exc → Task → Findings → Prop}
    (hQ : ∀ b d', d'.task = some t → d'.project = d.project → d'.checkpoint = b → Q b t d') :
    Wp (deciding Text S sp ex) i (Scheduler.hasCheckpoint t.projectName) Q X t d := by
  apply wp_check
  apply Wp.bind
  apply wp_ask
  · exact fun _ => ⟨t, hd, rfl⟩
  · intro _
    apply wp_ask
    · exact fun _ => ⟨t, hd, rfl, rfl⟩
    · exact fun b => hQ b _ hd rfl rfl
    · exact fun e he => ⟨isException_of_external_raises rfl he, hQ false _ hd rfl rfl⟩
  · exact fun e he => ⟨isException_of_external_raises rfl he, hQ false _ hd rfl hc⟩

/-- The scheduler decides as the table does. -/
theorem wp_decide :
    Wp (deciding Text S sp ex) i (Scheduler.decide S)
      (fun mode s d' => d'.task = some t ∧ d'.decides t = some mode ∧ s.mode = mode ∧
        s.projectName = t.projectName ∧ s.requirement = t.requirement)
      (fun e _ _ => e.cls = .value) t (.of (some t)) := by
  have happly {mode : TaskMode} {d : Findings} (hd : d.task = some t)
      (hm : d.decides t = some mode) {X : Exc → Task → Findings → Prop} :
      Wp (deciding Text S sp ex) i (Scheduler.apply mode)
        (fun mode s d' => d'.task = some t ∧ d'.decides t = some mode ∧ s.mode = mode ∧
          s.projectName = t.projectName ∧ s.requirement = t.requirement) X t d := by
    apply Wp.bind
    apply wp_neutral rfl
    · exact fun now => Wp.bind (Wp.mutate _ (Wp.pure _ ⟨hd, hm, rfl, rfl, rfl⟩))
    · exact fun _ he => absurd he (not_raises_of_sure rfl rfl)
  have hdecides {d : Findings} {b project checkpoint : Bool}
      (hr : decide (t.requirement ≠ "") = b) (hp : d.project = project)
      (hc : d.checkpoint = checkpoint) :
      d.decides t = decisionTable b project checkpoint := by
    rw [Findings.decides, hr, hp, hc]
  unfold Scheduler.decide
  apply Wp.bind
  apply Wp.object
  split
  · rename_i hr
    have hr' : decide (t.requirement ≠ "") = false := decide_eq_false fun h => h hr
    apply Wp.bind
    apply wp_hasCheckpoint rfl rfl
    intro b d hd hp hc
    cases b with
    | true => exact happly hd (hdecides hr' hp hc)
    | false => exact Wp.raise _ rfl
  · rename_i hr
    have hr' : decide (t.requirement ≠ "") = true := decide_eq_true hr
    apply Wp.bind
    apply wp_check
    apply wp_ask
    · exact fun _ => ⟨t, rfl, rfl, hr⟩
    · intro b
      cases b with
      | true =>
        apply Wp.bind
        apply wp_hasCheckpoint rfl rfl
        intro b d hd hp hc
        cases b with
        | true => exact happly hd (hdecides hr' hp hc)
        | false => exact happly hd (hdecides hr' hp hc)
      | false => exact happly rfl (hdecides hr' rfl rfl)
    · exact fun e he => ⟨isException_of_external_raises rfl he, happly rfl (hdecides hr' rfl rfl)⟩

theorem wp_runLocked :
    Wp (deciding Text S sp ex) i (Worker.runLocked S) (fun _ _ _ => True) (fun _ _ _ => True) t
      (.of (some t)) := by
  have hany {p : Py Text Event Task Unit} {d : Findings} {s : Task} (hp : Rest S sp ex i d p) :
      Wp (deciding Text S sp ex) i p (fun _ _ _ => True) (fun _ _ _ => True) s d :=
    Wp.mono (hp s) (fun _ _ _ _ => trivial) fun _ _ _ _ => trivial
  apply Wp.bind
  apply Wp.object
  apply Wp.bind
  apply Wp.attempt
  apply wp_neutral rfl
  · intro _
    apply Wp.bind
    apply Wp.attempt
    apply Wp.mono wp_decide
    · rintro mode s d ⟨hd, hm, rfl, hp, hr⟩
      apply Wp.bind
      apply wp_transition
      intro now
      apply Wp.bind
      apply wp_update
      · exact fun _ => ⟨t, hd, hp, hm⟩
      · exact Wp.mono (wp_attemptStream hd hp.symm hr.symm hm) (fun _ _ _ _ => trivial)
          fun _ _ _ _ => trivial
      · exact fun _ _ => trivial
    · intro e s d he
      dsimp only
      rw [if_pos he]
      exact hany (rest_reject _)
  · intro e he
    dsimp only
    rw [if_pos (isException_of_external_raises rfl he)]
    exact hany (rest_reject _)

theorem wp_execute :
    Wp (deciding Text S sp ex) i (Worker.execute S) (fun _ _ _ => True) (fun _ _ _ => True) t
      (.of (some t)) := by
  have hclean (p τ : String) (s : Task) (d : Findings) :
      Wp (deciding Text S sp ex) i (Worker.cleanUp p τ) (fun _ _ _ => True) (fun _ _ _ => True)
        s d := by
    apply Monitor.wp_undemanded (W := fun c => c.neutral = true)
    · exact asks_cleanUp (fun _ => rfl) (fun _ => rfl) (fun _ _ => rfl) p τ
    · exact fun d c r hc => directed_of_neutral hc d r
  have hguarded : Wp (deciding Text S sp ex) i (Worker.guarded S) (fun _ _ _ => True)
      (fun _ _ _ => True) t (.of (some t)) := by
    apply Wp.bind
    apply Wp.attempt
    apply Wp.mono wp_runLocked
    · exact fun _ _ _ _ => Wp.pure _ trivial
    · intro e s d _
      dsimp only
      split
      · apply Wp.bind
        apply Wp.object
        apply Wp.bind
        apply wp_neutral rfl
        · exact fun _ => Wp.mono (rest_handleRetriable _ s) (fun _ _ _ _ => trivial)
            fun _ _ _ _ => trivial
        · exact fun _ _ => trivial
      · exact Wp.raise _ trivial
  apply Wp.bind
  apply Wp.object
  apply Wp.bind
  apply wp_neutral rfl
  · intro τ
    apply Wp.bind
    apply wp_neutral rfl
    · intro acquired
      split
      · apply Wp.bind
        apply wp_neutral rfl
        · intro _
          apply Wp.ensure
          apply Wp.mono hguarded
          · exact fun _ s d _ => hclean _ _ s d
          · exact fun _ s d _ => hclean _ _ s d
        · exact fun _ _ => trivial
      · apply Wp.bind
        apply wp_neutral rfl
        · intro _
          apply Wp.bind
          apply wp_neutral rfl
          · exact fun _ => wp_neutral rfl (fun _ => trivial) fun _ _ => trivial
          · exact fun _ _ => trivial
        · exact fun _ _ => trivial
    · exact fun _ _ => trivial
  · exact fun _ _ => trivial

theorem wp_turn {s : Unit} :
    Wp (deciding Text S sp ex) i (Worker.turn S) (fun _ _ _ => True) (fun _ _ _ => True) s d := by
  apply Wp.bind
  apply Wp.bind
  apply wp_ask
  · exact fun _ => trivial
  · intro o
    cases o with
    | none => exact Wp.pure _ (Wp.pure _ trivial)
    | some x =>
      apply Wp.pure
      show Wp _ _ _ _ _ _ (Findings.of (parse x))
      cases parse x with
      | none => exact Wp.pure _ trivial
      | some t => exact Wp.on t wp_execute
  · exact fun _ _ => trivial

/-- The commands of a process that takes nothing from the queue. -/
def handsFree (c : Cmd Text Event) : Prop :=
  match c with
  | .brpop | .projectExists _ | .setProjectName _ | .checkpointExists _ | .iterEvents .. => False
  | .set _ x => ∀ u, parse x = some u → u.status ≠ .running
  | _ => True

theorem frames_handsFree :
    (deciding Text S sp ex).Frames i (fun c : Cmd Text Event => handsFree c) Findings.none := by
  apply Monitor.frames_demanding
  · intro c r hc
    cases c with
    | brpop | projectExists _ | setProjectName _ | checkpointExists _ | iterEvents _ _ _ =>
      exact absurd hc not_false
    | set _ _ => exact fun u hu hs => absurd hs (hc u hu)
    | _ => trivial
  · intro c r hc
    cases c with
    | brpop | projectExists _ | setProjectName _ | checkpointExists _ | iterEvents _ _ _ =>
      exact absurd hc not_false
    | _ => rfl
  · intro c r hc
    cases c with
    | brpop | projectExists _ | setProjectName _ | checkpointExists _ | iterEvents _ _ _ =>
      exact absurd hc not_false
    | _ => rfl

theorem asks_createTask_handsFree (body : TaskCreateRequest) :
    Asks handsFree (createTask S body : Py Text Event σ _) := by
  apply (asks_createTask body).mono
  rintro c ⟨-, hc⟩
  cases c with
  | brpop | projectExists _ | setProjectName _ | checkpointExists _ | iterEvents _ _ _ | set _ _ =>
    exact absurd hc not_false
  | _ => trivial

theorem asks_recoverKey_handsFree (id : String) :
    Asks handsFree (recoverKey S id : Py Text Event σ _) := by
  apply within_bind (asks trivial)
  intro o
  cases o with
  | none => exact within_pure _
  | some raw =>
    dsimp only
    split
    · exact within_pure _
    · split
      · exact within_pure _
      · split
        · apply within_bind (asks trivial)
          intro now
          apply within_bind
          · apply asks_asyncUpdate
            · intro u hu
              rw [parse_dump] at hu
              obtain rfl := Option.some.inj hu
              exact fun hs => nomatch hs
            · exact fun _ => trivial
          · exact fun _ => within_bind (asks trivial) fun _ => within_pure _
        · exact within_bind (asks trivial) fun _ => within_pure _

theorem asks_recoverStrandedTasks_handsFree :
    Asks handsFree (recoverStrandedTasks S : Py Text Event σ _) := by
  apply within_bind (asks trivial)
  intro pages
  generalize (0 : Nat) = n
  induction taskKeys pages generalizing n with
  | nil => exact within_pure n
  | cons id ids ih => exact within_bind (asks_recoverKey_handsFree id) fun _ => ih _

theorem safe_body (q : Kind) :
    Safe (deciding Text S sp ex) i (fun _ _ => True) ((orchestrator Text S sp ex).body q)
      Findings.none := by
  have hfree {σ : Type} {p : Py Text Event σ Returned} {s : σ} (hp : Asks handsFree p) :
      Wp (deciding Text S sp ex) i p (fun _ _ _ => True) (fun _ _ _ => True) s Findings.none :=
    Wp.mono (Wp.of_within hp frames_handsFree) (fun _ _ _ _ => trivial) fun _ _ _ _ => trivial
  apply Wp.start
  cases q with
  | recover => exact hfree (within_bind asks_recoverStrandedTasks_handsFree fun _ => within_pure _)
  | worker =>
    apply Wp.bind
    exact Wp.mono wp_turn (fun _ _ _ _ => Wp.pure _ trivial) fun _ _ _ h => h
  | request body =>
    exact hfree (within_bind (asks_createTask_handsFree body) fun _ => within_pure _)

end Decision

/-- In any number of replicas, however they are cut short: every execution checks its own project,
and streams its own task in the mode that the decision table gives for what the checks answered. -/
theorem decision_law {S : Setup Event} {tr : List (SysLabel Text Event)} {s : SysConfig Text Event}
    (hr : Run (replicas Text S) anyway (.idle .init) tr s) :
    (findings Text Event).Meets Directed tr :=
  (Monitor.meets_of_run (fun _ q => Decision.safe_body q) hr).1

end

/-- The mode of the stream that the latest label asks for. -/
def streamMode : List (SysLabel Task String) → Option TaskMode
  | .cmd _ (.iterEvents mode _ _) _ :: _ => some mode
  | _ => none

/-- A task of an unknown project, up to its stream. -/
theorem decision_law_new : ∃ tr s, Run (replicas Task demo) anyway (.idle .init) tr s ∧
    streamMode tr = some .new ∧ (findings Task String).Meets Directed tr := by
  obtain ⟨tr, s, hr, ho⟩ := replicaDriver.drive_observe anyway (.idle .init)
    (create 1 ++ [.spawn 2 .worker] ++ go 2 10) (fun o => streamMode o.1)
    (show _ = some TaskMode.new by decide)
  exact ⟨tr, s, hr, ho, decision_law hr⟩

end Orchestrator
