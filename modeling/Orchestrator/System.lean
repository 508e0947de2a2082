import Orchestrator.Worker
import Orchestrator.Concurrency.Pool

namespace Orchestrator
open Concurrency Async
set_option autoImplicit true

variable [TaskJson Text]

/-- The body of `POST /tasks`, with the bounds that the request model puts on the name. -/
structure TaskCreateRequest where
  projectName : String
  requirement : String := ""
  workDir : Option String := none
  configJson : Option String := none
  minLength : 1 ≤ projectName.length
  maxLength : projectName.length ≤ 128

structure TaskResponse where
  taskId : String
  projectName : String
  requirement : String
  workDir : String
  configJson : String
  mode : TaskMode
  status : TaskStatus
  createdAt : Nat
  updatedAt : Nat
  retryCount : Nat
  statusDetail : String
  deriving DecidableEq

def TaskResponse.fromTask (task : Task) : TaskResponse where
  taskId := task.taskId
  projectName := task.projectName
  requirement := task.requirement
  workDir := task.workDir
  configJson := task.configJson
  mode := task.mode
  status := task.status
  createdAt := task.createdAt
  updatedAt := task.updatedAt
  retryCount := task.retryCount
  statusDetail := task.statusDetail

def newTask (body : TaskCreateRequest) : Py Text Event σ Task := do
  let taskId : String ← ask .uuid4
  let createdAt : Nat ← ask .now
  let updatedAt : Nat ← ask .now
  return {
    taskId := taskId
    projectName := body.projectName
    requirement := body.requirement
    workDir := body.workDir.getD ""
    configJson := body.configJson.getD ""
    createdAt := createdAt
    updatedAt := updatedAt }

/-- The two lookups that come before a task is made. -/
def findExisting (S : Setup Event) (body : TaskCreateRequest) :
    Py Text Event σ (Option Task) := do
  match ← TaskStore.findIncomplete body.projectName with
  | some task => return some task
  | none => TaskStore.findByDigest S body.projectName body.requirement

def createTask (S : Setup Event) (body : TaskCreateRequest) :
    Py Text Event σ TaskResponse := do
  match ← findExisting S body with
  | some existing => return .fromTask existing
  | none =>
    let task ← newTask body
    TaskStore.save S task
    TaskQueue.enqueue task
    return .fromTask task

/-- The test on a key that drops the digests. -/
def ScanKey.taskId : ScanKey → Option String
  | .task id => some id
  | .digest _ => none

/-- The keys of the task records among the pages of a scan, read up to cursor zero. -/
def taskKeys : List (Nat × List ScanKey) → List String
  | [] => []
  | (cursor, keys) :: pages =>
    let ids := keys.filterMap ScanKey.taskId
    if cursor = 0 then ids else ids ++ taskKeys pages

/-- One turn of the loop over the keys: was the task put back into the queue? -/
def recoverKey (S : Setup Event) (id : String) : Py Text Event σ Bool := do
  match ← ask (.get id) with
  | none => return false
  | some raw =>
    match modelValidateJson raw with
    | .error _ => return false
    | .ok task =>
      if task.isTerminal then
        return false
      else if task.status = .running then
        let now : Nat ← ask .now
        let task := task.transition now .interrupted
          "crash-recovery: worker lost during execution"
        TaskStore.asyncUpdate S task
        TaskQueue.enqueue task
        return true
      else
        TaskQueue.enqueue task
        return true

def recoverKeys (S : Setup Event) : List String → Nat → Py Text Event σ Nat
  | [], recovered => return recovered
  | id :: ids, recovered => do
    let again ← recoverKey S id
    recoverKeys S ids (if again then recovered + 1 else recovered)

def recoverStrandedTasks (S : Setup Event) : Py Text Event σ Nat := do
  let pages : List (Nat × List ScanKey) ← ask .scan
  recoverKeys S (taskKeys pages) 0

inductive Kind where
  | recover
  | worker
  | request (body : TaskCreateRequest)

/-- What a process returns. -/
inductive Returned where
  | recovered (n : Nat)
  | turned
  | response (r : TaskResponse)

def Kind.run (S : Setup Event) : Kind → Py Text Event Unit Returned
  | .recover => do return .recovered (← recoverStrandedTasks S)
  | .worker => do
    Worker.turn S
    return .turned
  | .request body => do return .response (← createTask S body)

/-- A start of the program runs the recovery. Workers and requests come after it. -/
def spawn (q : Kind) (w w' : World Text Event) : Prop :=
  match q with
  | .recover => w.stage = .stopped ∧ w' = { w with stage := .recovering, running := true }
  | _ => w.stage = .serving ∧ w' = w

/-- A worker whose turn raises is gone. One that returns takes the next turn unless it was
stopped. -/
def exit (q : Kind) (b : Except Exc Returned) (w w' : World Text Event) (o : Option Kind) :
    Prop :=
  match q, b with
  | .recover, .ok _ => o = none ∧ w' = { w with stage := .serving }
  | .recover, .error _ => o = none ∧ w' = { w with stage := .stopped }
  | .worker, .ok _ => o = (if w.running then some .worker else none) ∧ w' = w
  | .worker, .error _ => o = none ∧ w' = w
  | .request _, _ => o = none ∧ w' = w

/-- The process dies. What is in Redis stays. -/
def halt (w w' : World Text Event) : Prop :=
  w' = { w with heartbeats := fun _ => none, threads := [], stage := .stopped, running := false }

def system (Text : Type) [TaskJson Text] (S : Setup Event) :
    Machine (Cmd Text Event) Cmd.Answer (Except Exc Returned)
    (World Text Event) Kind Tick where
  body q := start (q.run S) ()
  exec _ := exec
  abort _ := abort
  spawn := spawn
  exit := exit
  env := tick S
  halt := halt

abbrev SysLabel (Text Event : Type) : Type :=
  Label (Cmd Text Event) Cmd.Answer (Except Exc Returned) Kind Tick

abbrev SysConfig (Text Event : Type) : Type :=
  Config (Cmd Text Event) Cmd.Answer (Except Exc Returned) (World Text Event) Kind

abbrev Filter (Text Event : Type) : Type :=
  StepFilter (Cmd Text Event) Cmd.Answer (Except Exc Returned) (World Text Event) Kind Tick

end Orchestrator
