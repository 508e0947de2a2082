import Mathlib.Data.List.AList
import Mathlib.Data.Rat.Defs

namespace Orchestrator
set_option autoImplicit true

inductive TaskMode where
  | new | resume | secondary | unknown
  deriving DecidableEq, Repr

def TaskMode.value : TaskMode → String
  | .new => "new"
  | .resume => "resume"
  | .secondary => "secondary"
  | .unknown => "unknown"

inductive TaskStatus where
  | pending | running | success | failed | interrupted
  deriving DecidableEq, Repr

/-- The task record. Times are the readings of a clock. -/
structure Task where
  taskId : String
  projectName : String
  requirement : String := ""
  workDir : String := ""
  configJson : String := ""
  mode : TaskMode := .unknown
  status : TaskStatus := .pending
  createdAt : Nat
  updatedAt : Nat
  retryCount : Nat := 0
  statusDetail : String := ""
  deriving DecidableEq, Repr

def TaskStatus.isTerminal (s : TaskStatus) : Bool := s = .success || s = .failed

namespace Task

def touch (t : Task) (now : Nat) : Task := { t with updatedAt := now }

def transition (t : Task) (now : Nat) (newStatus : TaskStatus) (detail : String) : Task :=
  { t with status := newStatus, statusDetail := detail }.touch now

def isTerminal (t : Task) : Bool := t.status.isTerminal

/-- The part of a record that no transition changes. -/
def SameTask (t u : Task) : Prop :=
  t.taskId = u.taskId ∧ t.projectName = u.projectName ∧ t.requirement = u.requirement

theorem SameTask.refl (t : Task) : SameTask t t := ⟨rfl, rfl, rfl⟩

theorem SameTask.symm (h : SameTask t u) : SameTask u t := ⟨h.1.symm, h.2.1.symm, h.2.2.symm⟩

theorem SameTask.trans (h : SameTask t u) (h' : SameTask u v) : SameTask t v :=
  ⟨h.1.trans h'.1, h.2.1.trans h'.2.1, h.2.2.trans h'.2.2⟩

theorem sameTask_transition (t : Task) (now : Nat) (s : TaskStatus) (d : String) :
    SameTask (t.transition now s d) t := ⟨rfl, rfl, rfl⟩

@[simp] theorem transition_status (t : Task) (now : Nat) (s : TaskStatus) (d : String) :
    (t.transition now s d).status = s := rfl

@[simp] theorem transition_taskId (t : Task) (now : Nat) (s : TaskStatus) (d : String) :
    (t.transition now s d).taskId = t.taskId := rfl

end Task

/-- The status changes a task can go through once it is stored. -/
inductive TaskStatus.Legal : TaskStatus → TaskStatus → Prop where
  | same (s : TaskStatus) : Legal s s
  | start : Legal .pending .running
  | reject : Legal .pending .failed
  | succeed : Legal .running .success
  | fail : Legal .running .failed
  | interrupt : Legal .running .interrupted
  | resume : Legal .interrupted .running
  | abandon : Legal .interrupted .failed

theorem TaskStatus.Legal.of_terminal {s s' : TaskStatus} (h : Legal s s')
    (ht : s.isTerminal = true) : s' = s := by
  cases h with
  | same => rfl
  | _ => cases ht

/-- The classes of exceptions that some handler tells apart. `base` are those besides
`CancelledError` that are no `Exception`, as `SystemExit`. -/
inductive ExcClass where
  | fatal | retriable | lockStolen | cancelled | timeout | futuresCancelled | value | runtime
  | base | other
  deriving DecidableEq, Repr

structure Exc where
  cls : ExcClass
  msg : String
  deriving DecidableEq, Repr

/-- `except Exception` lets the other two classes pass. -/
def Exc.isException (e : Exc) : Bool := e.cls ≠ .cancelled ∧ e.cls ≠ .base

theorem Exc.isException_iff {e : Exc} :
    e.isException = true ↔ e.cls ≠ .cancelled ∧ e.cls ≠ .base := decide_eq_true_iff

theorem Exc.not_isException {e : Exc} :
    e.isException = false ↔ e.cls = .cancelled ∨ e.cls = .base := by
  rw [isException, decide_eq_false_iff_not, not_and_or, not_not, not_not]

/-- Tasks as JSON text: reading back what was dumped gives the same task. -/
class TaskJson (Text : Type) where
  modelDumpJson : Task → Text
  modelValidateJson : Text → Except String Task
  validate_dump : ∀ t, modelValidateJson (modelDumpJson t) = .ok t

export TaskJson (modelDumpJson modelValidateJson validate_dump)

attribute [simp] validate_dump

/-- The task that a text holds, if it holds one. -/
def parse [TaskJson Text] (x : Text) : Option Task := (modelValidateJson x).toOption

@[simp] theorem parse_dump [TaskJson Text] (t : Task) :
    parse (modelDumpJson t : Text) = some t := by
  simp only [parse, validate_dump, Except.toOption]

theorem parse_eq_some [TaskJson Text] {x : Text} {t : Task} :
    parse x = some t ↔ modelValidateJson x = .ok t := by
  unfold parse
  cases modelValidateJson x <;> simp [Except.toOption]

end Orchestrator
