import Orchestrator.System

namespace Orchestrator
open Concurrency Async
set_option autoImplicit true

abbrev Asks (p : Cmd Text Event → Prop) (q : Py Text Event σ α) : Prop := Async.Within p q

theorem asks {p : Cmd Text Event → Prop} {c : Cmd Text Event} (hc : p c) :
    Asks p (ask c : Py Text Event σ c.Reply) := within_call hc

theorem keeps_tryExcept {p : Cmd Text Event → Prop} {I : σ → Prop} {q : Py Text Event σ α}
    {h : Exc → Py Text Event σ α} (hq : Keeps p I q) (hh : ∀ e, Keeps p I (h e)) :
    Keeps p I (tryExcept q h) := by
  apply keeps_bind (keeps_attempt hq)
  intro o
  cases o with
  | ok a => exact keeps_pure a
  | error e =>
    dsimp only
    split
    · exact hh e
    · exact keeps_raise e

theorem keeps_check {p : Cmd Text Event → Prop} {I : σ → Prop} {q : Py Text Event σ Bool}
    (hq : Keeps p I q) : Keeps p I (Scheduler.check q) :=
  keeps_tryExcept hq fun _ => keeps_pure _

theorem asks_newTask {p : Cmd Text Event → Prop} (hu : p .uuid4) (hn : p .now)
    (body : TaskCreateRequest) : Asks p (newTask body : Py Text Event σ _) := by
  apply within_bind (asks hu)
  intro id
  apply within_bind (asks hn)
  intro createdAt
  exact within_bind (asks hn) fun updatedAt => within_pure _

variable [TaskJson Text]

/-- A record is written under its own id, and what is queued is a task. -/
def Cmd.Tidy : Cmd Text Event → Prop
  | .set id x | .setNx id x => ∃ t : Task, id = t.taskId ∧ x = modelDumpJson t
  | .lpush x => ∃ t : Task, x = modelDumpJson t
  | _ => True

/-- What `create_task` asks before it makes a task. -/
def Cmd.lookup : Cmd Text Event → Prop
  | .smembers _ | .mget _ | .getDigest _ | .get _ => True
  | _ => False

/-- What `create_task` asks. -/
def Cmd.request (c : Cmd Text Event) : Prop :=
  c.Tidy ∧ match c with
    | .smembers _ | .mget _ | .getDigest _ | .get _ | .uuid4 | .now | .setNx .. | .sadd ..
    | .setDigest .. | .lpush _ => True
    | _ => False

/-- What a worker asks while it holds the lock, clean-up and stream apart. -/
def Cmd.aside (c : Cmd Text Event) : Prop :=
  c.Tidy ∧ match c with
    | .set .. | .delDigest _ | .lpush _ | .publish .. | .now | .factoryGet .. | .projectExists _
    | .setProjectName _ | .checkpointExists _ => True
    | _ => False

/-- What a worker asks while it holds the lock, clean-up apart. -/
def Cmd.locked (c : Cmd Text Event) : Prop :=
  c.Tidy ∧ match c with
    | .set .. | .delDigest _ | .lpush _ | .publish .. | .now | .log _ | .factoryGet ..
    | .projectExists _ | .setProjectName _ | .checkpointExists _ | .iterEvents ..
    | .runInExecutor .. | .awaitFuture .. => True
    | _ => False

/-- What a worker asks. -/
def Cmd.work (c : Cmd Text Event) : Prop :=
  match c with
  | .brpop | .uuid4 | .acquireLock .. | .createHeartbeat .. | .cancelHeartbeat _
  | .awaitHeartbeat _ | .evalRelease .. | .sleep => True
  | c => c.locked

/-- What the recovery asks for the keys it has found. -/
def Cmd.requeue (c : Cmd Text Event) : Prop :=
  c.Tidy ∧ match c with
    | .get _ | .now | .set .. | .delDigest _ | .lpush _ => True
    | _ => False

/-- What the recovery asks. -/
def Cmd.recovery (c : Cmd Text Event) : Prop :=
  match c with
  | .scan => True
  | c => c.requeue

theorem locked_of_aside {c : Cmd Text Event} (h : c.aside) : c.locked := by
  cases c with
  | set _ _ | delDigest _ | lpush _ | publish _ _ | now | factoryGet _ _ | projectExists _
  | setProjectName _ | checkpointExists _ => exact h
  | _ => exact absurd h.2 not_false

theorem work_of_locked {c : Cmd Text Event} (h : c.locked) : c.work := by
  cases c with
  | brpop | uuid4 | acquireLock _ _ _ | createHeartbeat _ _ | cancelHeartbeat _
  | awaitHeartbeat _ | evalRelease _ _ | sleep => trivial
  | _ => exact h

theorem recovery_of_requeue {c : Cmd Text Event} (h : c.requeue) : c.recovery := by
  cases c with
  | scan => trivial
  | _ => exact h

theorem tidy_of_recovery {c : Cmd Text Event} (h : c.recovery) : c.Tidy := by
  cases c with
  | scan => trivial
  | _ => exact h.1

theorem tidy_of_work {c : Cmd Text Event} (h : c.work) : c.Tidy := by
  cases c with
  | brpop | uuid4 | acquireLock _ _ _ | createHeartbeat _ _ | cancelHeartbeat _
  | awaitHeartbeat _ | evalRelease _ _ | sleep => trivial
  | _ => exact h.1

theorem keeps_close {I : Task → Prop} :
    Keeps Cmd.aside I (Worker.close : Py Text Event Task _) :=
  keeps_object_bind fun _ _ => keeps_call ⟨trivial, trivial⟩

section
variable {I : Task → Prop} (hI : ∀ t u, Task.SameTask u t → I t → I u)
include hI

theorem keeps_transition (st : TaskStatus) (detail : String) :
    Keeps Cmd.aside I (Worker.transition st detail : Py Text Event Task _) := by
  apply keeps_bind (keeps_call ⟨trivial, trivial⟩)
  intro now
  exact keeps_mutate fun t ht => hI t _ (Task.sameTask_transition t now st detail) ht

theorem keeps_apply (mode : TaskMode) :
    Keeps Cmd.aside I (Scheduler.apply mode : Py Text Event Task _) := by
  apply keeps_bind (keeps_call ⟨trivial, trivial⟩)
  intro now
  apply keeps_bind
  · exact keeps_mutate fun t ht => hI t _ ⟨rfl, rfl, rfl⟩ ht
  · exact fun _ => keeps_pure _

theorem keeps_decide : Keeps Cmd.aside I (Scheduler.decide S : Py Text Event Task _) := by
  have hcheckpoint (project : String) :
      Keeps Cmd.aside I (Scheduler.hasCheckpoint project : Py Text Event Task _) :=
    keeps_check (keeps_bind (keeps_call ⟨trivial, trivial⟩) fun _ => keeps_call ⟨trivial, trivial⟩)
  apply keeps_object_bind
  intro t _
  split
  · apply keeps_bind (hcheckpoint _)
    intro b
    split
    · exact keeps_apply hI _
    · exact keeps_raise _
  · apply keeps_bind (keeps_check (keeps_call ⟨trivial, trivial⟩))
    intro b
    split
    · apply keeps_bind (hcheckpoint _)
      intro b
      split
      · exact keeps_apply hI _
      · exact keeps_apply hI _
    · exact keeps_apply hI _

end

variable {S : Setup Event}

theorem asks_get {p : Cmd Text Event → Prop} (hp : ∀ id, p (.get id)) (id : String) :
    Asks p (TaskStore.get id : Py Text Event σ _) := by
  apply within_bind (asks (hp id))
  intro o
  cases o with
  | none => exact within_pure _
  | some raw =>
    dsimp only
    split
    · exact within_pure _
    · exact within_raise _

theorem asks_findByDigest {p : Cmd Text Event → Prop} (hd : ∀ h, p (.getDigest h))
    (hp : ∀ id, p (.get id)) (project requirement : String) :
    Asks p (TaskStore.findByDigest S project requirement : Py Text Event σ _) := by
  apply within_bind (asks (hd _))
  intro o
  cases o with
  | none => exact within_pure _
  | some id => exact asks_get hp id

theorem asks_findIncomplete {p : Cmd Text Event → Prop} (hs : ∀ project, p (.smembers project))
    (hm : ∀ ids, p (.mget ids)) (project : String) :
    Asks p (TaskStore.findIncomplete project : Py Text Event σ _) := by
  apply within_bind
  · apply within_bind (asks (hs _))
    intro ids
    split
    · exact within_pure _
    · exact within_bind (asks (hm _)) fun _ => within_pure _
  · exact fun _ => within_pure _

theorem asks_findExisting (body : TaskCreateRequest) :
    Asks Cmd.lookup (findExisting S body : Py Text Event σ _) := by
  apply within_bind (asks_findIncomplete (fun _ => trivial) (fun _ => trivial) _)
  intro o
  cases o with
  | some t => exact within_pure _
  | none => exact asks_findByDigest (fun _ => trivial) (fun _ => trivial) _ _

theorem asks_asyncUpdate {p : Cmd Text Event → Prop} (t : Task)
    (hs : p (.set t.taskId (modelDumpJson t))) (hd : ∀ h, p (.delDigest h)) :
    Asks p (TaskStore.asyncUpdate S t : Py Text Event σ _) := by
  apply within_bind (asks hs)
  intro _
  split
  · exact asks (hd _)
  · exact within_pure _

theorem keeps_update {I : Task → Prop} :
    Keeps Cmd.aside I (Worker.update S : Py Text Event Task _) := by
  apply keeps_object_bind
  intro t _
  apply keeps_bind (keeps_call ⟨⟨t, rfl, rfl⟩, trivial⟩)
  intro _
  split
  · exact keeps_call ⟨trivial, trivial⟩
  · exact keeps_pure _

section
variable {I : Task → Prop} (hI : ∀ t u, Task.SameTask u t → I t → I u)
include hI

theorem keeps_handleRetriable (exc : Exc) :
    Keeps Cmd.aside I (Worker.handleRetriable S exc : Py Text Event Task _) := by
  apply keeps_object_bind
  intro t _
  split
  · apply keeps_bind
    · exact keeps_mutate fun t ht => hI t _ ⟨rfl, rfl, rfl⟩ ht
    · intro _
      apply keeps_bind (keeps_transition hI _ _)
      intro _
      apply keeps_bind keeps_update
      intro _
      exact keeps_object_bind fun u _ => keeps_call ⟨⟨u, rfl⟩, trivial⟩
  · apply keeps_bind (keeps_transition hI _ _)
    intro _
    exact keeps_bind keeps_update fun _ => keeps_close

theorem keeps_reject (detail : String) :
    Keeps Cmd.aside I (Worker.reject S detail : Py Text Event Task _) :=
  keeps_bind (keeps_transition hI _ _) fun _ => keeps_bind keeps_update fun _ => keeps_close

end

/-- What is asked aside is asked with the lock. -/
theorem asks_of_keeps {q : Py Text Event Task α}
    (hq : (∀ t u, Task.SameTask u t → True → True) → Keeps Cmd.aside (fun _ => True) q) :
    Asks Cmd.locked q :=
  ((hq fun _ _ _ _ => trivial).within fun _ => trivial).mono fun _ => locked_of_aside

theorem asks_stream (mode : TaskMode) :
    Asks Cmd.locked (Worker.stream S mode : Py Text Event Task _) := by
  apply within_bind within_object
  intro t
  apply within_bind (asks ⟨trivial, trivial⟩)
  intro it
  apply within_bind (asks ⟨trivial, trivial⟩)
  intro n
  apply within_bind (within_attempt (asks ⟨trivial, trivial⟩))
  intro o
  cases o with
  | ok _ => exact within_pure _
  | error e =>
    dsimp only
    split
    · exact within_raise _
    · exact within_raise _

theorem asks_attemptStream (mode : TaskMode) :
    Asks Cmd.locked (Worker.attemptStream S mode : Py Text Event Task _) := by
  apply within_bind
  · apply within_attempt
    apply within_bind (asks_stream mode)
    intro _
    apply within_bind (asks_of_keeps fun h => keeps_transition h _ _)
    exact fun _ => asks_of_keeps fun _ => keeps_update
  · intro o
    cases o with
    | ok _ => exact asks_of_keeps fun _ => keeps_close
    | error e =>
      dsimp only
      split
      · exact asks_of_keeps fun h => keeps_reject h _
      · apply within_bind (asks_of_keeps fun _ => keeps_close)
        exact fun _ => asks_of_keeps fun h => keeps_handleRetriable h e
      · exact within_raise e
      · exact within_raise e
      · apply within_bind (asks_of_keeps fun h => keeps_transition h _ _)
        intro _
        apply within_bind (asks_of_keeps fun _ => keeps_update)
        intro _
        exact within_bind (asks_of_keeps fun _ => keeps_close) fun _ => within_raise e
      · exact asks_of_keeps fun h => keeps_reject h _

theorem asks_runLocked : Asks Cmd.locked (Worker.runLocked S : Py Text Event Task _) := by
  apply within_bind within_object
  intro t
  apply within_bind (within_attempt (asks ⟨trivial, trivial⟩))
  intro o
  cases o with
  | error e =>
    dsimp only
    split
    · exact asks_of_keeps fun h => keeps_reject h _
    · exact within_raise e
  | ok _ =>
    apply within_bind (within_attempt (asks_of_keeps fun h => keeps_decide h))
    intro o
    cases o with
    | error e =>
      dsimp only
      split
      · exact asks_of_keeps fun h => keeps_reject h _
      · exact within_raise e
    | ok mode =>
      apply within_bind (asks_of_keeps fun h => keeps_transition h _ _)
      intro _
      exact within_bind (asks_of_keeps fun _ => keeps_update) fun _ => asks_attemptStream mode

theorem asks_guarded : Asks Cmd.locked (Worker.guarded S : Py Text Event Task _) := by
  apply within_bind (within_attempt asks_runLocked)
  intro o
  cases o with
  | ok _ => exact within_pure _
  | error e =>
    dsimp only
    split
    · apply within_bind within_object
      intro t
      apply within_bind (asks ⟨trivial, trivial⟩)
      exact fun _ => asks_of_keeps fun h => keeps_handleRetriable h _
    · exact within_raise e

theorem asks_execute : Asks Cmd.work (Worker.execute S : Py Text Event Task _) := by
  apply within_bind within_object
  intro t
  apply within_bind (asks trivial)
  intro τ
  apply within_bind (asks trivial)
  intro b
  split
  · apply within_bind (asks trivial)
    intro _
    apply within_ensure (asks_guarded.mono fun _ => work_of_locked)
    apply within_bind (asks trivial)
    intro _
    exact within_bind (within_attempt (asks trivial)) fun _ => asks trivial
  · apply within_bind (asks ⟨trivial, trivial⟩)
    intro _
    exact within_bind (asks ⟨⟨_, rfl⟩, trivial⟩) fun _ => asks trivial

theorem asks_turn : Asks Cmd.work (Worker.turn S : Py Text Event Unit _) := by
  apply within_bind
  · apply within_bind (asks trivial)
    intro o
    cases o <;> exact within_pure _
  · intro o
    cases o with
    | none => exact within_pure _
    | some t => exact within_on t asks_execute

theorem asks_recoverKey (id : String) :
    Asks Cmd.requeue (recoverKey S id : Py Text Event σ _) := by
  apply within_bind (asks ⟨trivial, trivial⟩)
  intro o
  cases o with
  | none => exact within_pure _
  | some raw =>
    dsimp only
    split
    · exact within_pure _
    · split
      · exact within_pure _
      · split
        · apply within_bind (asks ⟨trivial, trivial⟩)
          intro now
          apply within_bind
            (asks_asyncUpdate _ ⟨⟨_, rfl, rfl⟩, trivial⟩ fun _ => ⟨trivial, trivial⟩)
          intro _
          exact within_bind (asks ⟨⟨_, rfl⟩, trivial⟩) fun _ => within_pure _
        · exact within_bind (asks ⟨⟨_, rfl⟩, trivial⟩) fun _ => within_pure _

theorem asks_recoverKeys (ids : List String) (n : Nat) :
    Asks Cmd.requeue (recoverKeys S ids n : Py Text Event σ _) := by
  induction ids generalizing n with
  | nil => exact within_pure n
  | cons id ids ih => exact within_bind (asks_recoverKey id) fun _ => ih _

theorem asks_recoverStrandedTasks :
    Asks Cmd.recovery (recoverStrandedTasks S : Py Text Event σ _) :=
  within_bind (asks trivial) fun _ => (asks_recoverKeys _ _).mono fun _ => recovery_of_requeue

theorem request_of_lookup {c : Cmd Text Event} (h : c.lookup) : c.request := by
  cases c with
  | smembers _ | mget _ | getDigest _ | get _ => exact ⟨trivial, trivial⟩
  | _ => exact absurd h not_false

theorem asks_save {p : Cmd Text Event → Prop} {t : Task}
    (hn : p (.setNx t.taskId (modelDumpJson t))) (hs : p (.sadd t.projectName t.taskId))
    (hd : ∀ h, p (.setDigest h t.taskId)) : Asks p (TaskStore.save S t : Py Text Event σ _) := by
  have hrest : Asks p (do
      ask (.sadd t.projectName t.taskId)
      if t.requirement ≠ "" then
        ask (.setDigest (digestKey S t.projectName t.requirement) t.taskId) :
      Py Text Event σ Unit) := by
    apply within_bind (asks hs)
    intro _
    split
    · exact asks (hd _)
    · exact within_pure _
  apply within_bind (asks hn)
  intro b
  cases b with
  | true => exact hrest
  | false => exact within_bind (within_raise _) fun _ => hrest

theorem asks_createTask (body : TaskCreateRequest) :
    Asks Cmd.request (createTask S body : Py Text Event σ _) := by
  apply within_bind ((asks_findExisting body).mono fun _ => request_of_lookup)
  intro o
  cases o with
  | some t => exact within_pure _
  | none =>
    apply within_bind (asks_newTask ⟨trivial, trivial⟩ ⟨trivial, trivial⟩ body)
    intro t
    apply within_bind
      (asks_save ⟨⟨t, rfl, rfl⟩, trivial⟩ ⟨trivial, trivial⟩ fun _ => ⟨trivial, trivial⟩)
    intro _
    exact within_bind (asks ⟨⟨t, rfl⟩, trivial⟩) fun _ => within_pure _

theorem tidy_body (q : Kind) : ((system Text S).body q).Within Cmd.Tidy := by
  apply Within.start
  cases q with
  | recover =>
    exact within_bind (asks_recoverStrandedTasks.mono fun _ => tidy_of_recovery)
      fun _ => within_pure _
  | worker => exact within_bind (asks_turn.mono fun _ => tidy_of_work) fun _ => within_pure _
  | request body =>
    exact within_bind ((asks_createTask body).mono fun _ h => h.1) fun _ => within_pure _

end Orchestrator
