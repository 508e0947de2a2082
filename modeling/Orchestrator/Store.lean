import Orchestrator.Command

namespace Orchestrator
open Concurrency Async
set_option autoImplicit true

variable [TaskJson Text]

/-- The digest that `_digest_key` puts into the key. -/
def digestKey (S : Setup Event) (projectName requirement : String) : String :=
  S.sha256 (projectName ++ "\x00" ++ requirement)

namespace TaskStore

def save (S : Setup Event) (task : Task) : Py Text Event σ Unit := do
  let setResult : Bool ← ask (.setNx task.taskId (modelDumpJson task))
  unless setResult do
    raise ⟨.value, s!"Task {S.repr task.taskId} already exists"⟩
  ask (.sadd task.projectName task.taskId)
  if task.requirement ≠ "" then
    ask (.setDigest (digestKey S task.projectName task.requirement) task.taskId)

def asyncUpdate (S : Setup Event) (task : Task) : Py Text Event σ Unit := do
  ask (.set task.taskId (modelDumpJson task))
  if task.isTerminal ∧ task.requirement ≠ "" then
    ask (.delDigest (digestKey S task.projectName task.requirement))

def get (taskId : String) : Py Text Event σ (Option Task) := do
  match ← ask (.get taskId) with
  | none => return none
  | some raw =>
    match modelValidateJson raw with
    | .ok task => return some task
    | .error msg => raise ⟨.value, msg⟩

/-- A record that does not parse is skipped. -/
def listByProject (projectName : String) : Py Text Event σ (List Task) := do
  let taskIds : List String ← ask (.smembers projectName)
  if taskIds.isEmpty then
    return []
  else
    let raws : List (Option Text) ← ask (.mget taskIds)
    return raws.filterMap (·.bind parse)

def hasRunningTask (projectName : String) : Py Text Event σ Bool := do
  let tasks ← listByProject projectName
  return tasks.any fun task => task.status = .running

def findIncomplete (projectName : String) : Py Text Event σ (Option Task) := do
  let tasks ← listByProject projectName
  return tasks.find? fun task => task.status = .pending || task.status = .running

def findByDigest (S : Setup Event) (projectName requirement : String) :
    Py Text Event σ (Option Task) := do
  match ← ask (.getDigest (digestKey S projectName requirement)) with
  | none => return none
  | some taskId => get taskId

end TaskStore

namespace TaskQueue

def enqueue (task : Task) : Py Text Event σ Unit := ask (.lpush (modelDumpJson task))

/-- An entry that does not parse is dropped. -/
def dequeue : Py Text Event σ (Option Task) := do
  match ← ask .brpop with
  | none => return none
  | some raw => return parse raw

end TaskQueue

end Orchestrator
