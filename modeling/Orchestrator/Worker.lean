import Orchestrator.Store

namespace Orchestrator
open Concurrency Async
set_option autoImplicit true

def acquireLock (projectName token : String) (ttl : Nat) : Py Text Event σ Bool :=
  ask (.acquireLock projectName token ttl)

def releaseLock (projectName token : String) : Py Text Event σ Unit :=
  ask (.evalRelease projectName token)

def doneMessage : String := "__DONE__"

def EventBus.close (taskId : String) : Py Text Event σ Unit :=
  ask (.publish (channel taskId) doneMessage)

/-- `s or None`. -/
def orNone (s : String) : Option String := if s = "" then none else some s

namespace Scheduler

/-- A check that raises counts as false. -/
def check (p : Py Text Event σ Bool) : Py Text Event σ Bool := tryExcept p fun _ => return false

def apply (mode : TaskMode) : Py Text Event Task TaskMode := do
  let now : Nat ← ask .now
  mutate fun task => { task with mode := mode }.touch now
  return mode

def hasCheckpoint (projectName : String) : Py Text Event σ Bool :=
  check do
    ask (.setProjectName projectName)
    ask (.checkpointExists projectName)

def decide (S : Setup Event) : Py Text Event Task TaskMode := do
  let task ← object
  if task.requirement = "" then
    let checkpoint ← hasCheckpoint task.projectName
    if checkpoint then
      apply .resume
    else
      raise ⟨.value, s!"requirement 为空，但 project={S.repr task.projectName} 不存在可恢复的 checkpoint，无法执行任何操作"⟩
  else
    let projectExists ← check (ask (.projectExists task.projectName))
    if projectExists then
      let checkpoint ← hasCheckpoint task.projectName
      if checkpoint then apply .resume else apply .secondary
    else
      apply .new

end Scheduler

namespace Worker
variable [TaskJson Text]

def transition (status : TaskStatus) (detail : String) : Py Text Event Task Unit := do
  let now : Nat ← ask .now
  mutate fun task => task.transition now status detail

/-- `self._queue.store.update(task)`, taken as the writes of `async_update`. -/
def update (S : Setup Event) : Py Text Event Task Unit := do
  let task ← object
  TaskStore.asyncUpdate S task

def close : Py Text Event Task Unit := do
  let task ← object
  EventBus.close task.taskId

def handleRetriable (S : Setup Event) (exc : Exc) : Py Text Event Task Unit := do
  let task ← object
  if (task.retryCount : Int) < S.settings.maxRetries then
    mutate fun task => { task with retryCount := task.retryCount + 1 }
    transition .interrupted s!"retry {task.retryCount + 1}: {exc.msg}"
    update S
    let task ← object
    TaskQueue.enqueue task
  else
    transition .failed s!"max retries ({S.settings.maxRetries}) exceeded: {exc.msg}"
    update S
    close

/-- Hand the engine's iterator to a thread and wait for it. `_consume_sync` is taken as
forwarding the events of the iterator. -/
def stream (S : Setup Event) (mode : TaskMode) : Py Text Event Task Unit := do
  let task ← object
  let it : Iter Event ← ask (.iterEvents mode task.projectName task.requirement)
  let future : Nat ← ask (.runInExecutor task.taskId task.projectName it)
  match ← attempt (ask (.awaitFuture future S.settings.streamTimeout)) with
  | .ok _ => return
  | .error exc =>
    if exc.cls = .timeout then
      raise ⟨.cancelled, s!"stream timeout after {S.reprFloat S.settings.streamTimeout}s"⟩
    else
      raise exc

/-- The last `try` statement of `_run_locked` and the `close` after it. -/
def attemptStream (S : Setup Event) (mode : TaskMode) : Py Text Event Task Unit := do
  let outcome ← attempt do
    stream S mode
    transition .success ""
    update S
  match outcome with
  | .ok _ => close
  | .error exc =>
    match exc.cls with
    | .fatal =>
      transition .failed exc.msg
      update S
      close
    | .retriable =>
      close
      handleRetriable S exc
    | .lockStolen => raise exc
    -- No clause catches it.
    | .base => raise exc
    | .cancelled =>
      transition .interrupted "worker cancelled"
      update S
      close
      raise exc
    | _ =>
      transition .failed s!"unexpected: {exc.msg}"
      update S
      close

/-- The way out when the stream cannot be started. -/
def reject (S : Setup Event) (detail : String) : Py Text Event Task Unit := do
  transition .failed detail
  update S
  close

def runLocked (S : Setup Event) : Py Text Event Task Unit := do
  let task ← object
  match ← attempt (ask (.factoryGet (orNone task.workDir) (orNone task.configJson))) with
  | .error exc =>
    if exc.isException then
      reject S s!"engine initialisation failed: {exc.msg}"
    else
      raise exc
  | .ok _ =>
    match ← attempt (Scheduler.decide S) with
    | .error exc => if exc.cls = .value then reject S exc.msg else raise exc
    | .ok mode =>
      transition .running s!"mode={mode.value}"
      update S
      attemptStream S mode

/-- The `try` statement of `_execute` up to its `finally`. -/
def guarded (S : Setup Event) : Py Text Event Task Unit := do
  match ← attempt (runLocked S) with
  | .ok _ => return
  | .error exc =>
    if exc.cls = .lockStolen then
      let task ← object
      ask (.log (.lockStolen task.projectName task.taskId))
      handleRetriable S ⟨.retriable, "distributed lock was stolen during execution"⟩
    else
      raise exc

/-- The `finally` of `_execute`. Whatever the heartbeat ended with is passed over. -/
def cleanUp (projectName lockToken : String) : Py Text Event Task Unit := do
  ask (.cancelHeartbeat lockToken)
  let _ ← attempt (ask (.awaitHeartbeat lockToken))
  releaseLock projectName lockToken

def execute (S : Setup Event) : Py Text Event Task Unit := do
  let task ← object
  let lockToken : String ← ask .uuid4
  let acquired ← acquireLock task.projectName lockToken S.settings.lockTtl
  if acquired then
    ask (.createHeartbeat task.projectName lockToken)
    ensure (guarded S) (cleanUp task.projectName lockToken)
  else
    ask (.log (.lockBusy task.projectName task.taskId))
    TaskQueue.enqueue task
    ask .sleep

/-- One turn of the loop of `run`. -/
def turn (S : Setup Event) : Py Text Event Unit Unit := do
  match ← TaskQueue.dequeue with
  | none => return
  | some task => on task (execute S)

end Worker

end Orchestrator
