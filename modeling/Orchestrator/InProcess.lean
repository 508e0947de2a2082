import Orchestrator.Python.Value
import Orchestrator.Store

namespace Orchestrator
open Concurrency Async Python
set_option autoImplicit true

/-- The in-process store and queue: the dictionary of the tasks, and the tasks in the queue with the
next one first. -/
structure InProcess where
  tasks : List (String × Task)
  q : List Task

namespace InProcess

def empty : InProcess := ⟨[], []⟩

def save (S : Setup Event) (m : InProcess) (task : Task) : Except Exc Unit × InProcess :=
  if (m.tasks.lookup task.taskId).isSome then
    (.error ⟨.value, s!"Task {S.repr task.taskId} already exists"⟩, m)
  else (.ok (), { m with tasks := dictSet task.taskId task m.tasks })

def update (m : InProcess) (task : Task) : InProcess :=
  { m with tasks := dictSet task.taskId task m.tasks }

def get (m : InProcess) (taskId : String) : Option Task := m.tasks.lookup taskId

def listByProject (m : InProcess) (projectName : String) : List Task :=
  (m.tasks.map Prod.snd).filter fun task => task.projectName = projectName

def hasRunningTask (m : InProcess) (projectName : String) : Bool :=
  (m.listByProject projectName).any fun task => task.status = .running

def findIncomplete (m : InProcess) (projectName : String) : Option Task :=
  (m.listByProject projectName).find? fun task => task.status = .pending || task.status = .running

def enqueue (m : InProcess) (task : Task) : InProcess := { m with q := m.q ++ [task] }

/-- `asyncio.wait_for` with a timeout that is not positive gives up before `get` has begun. -/
def dequeue (m : InProcess) (timeout : Rat) : Option Task × InProcess :=
  if timeout ≤ 0 then (none, m)
  else
    match m.q with
    | [] => (none, m)
    | task :: q => (some task, { m with q := q })

end InProcess

/-- A call of the store or of the queue. -/
inductive StoreOp where
  | save (task : Task)
  | update (task : Task)
  | get (taskId : String)
  | listByProject (projectName : String)
  | hasRunningTask (projectName : String)
  | findIncomplete (projectName : String)
  | enqueue (task : Task)
  | dequeue (timeout : Rat)

/-- What a call returns. -/
inductive StoreAnswer where
  | done
  | task (o : Option Task)
  | tasks (ts : List Task)
  | flag (b : Bool)

namespace StoreOp

/-- A call of the in-process store or queue. -/
def inProcess (S : Setup Event) (m : InProcess) : StoreOp → Except Exc StoreAnswer × InProcess
  | .save task => ((m.save S task).1.map fun _ => .done, (m.save S task).2)
  | .update task => (.ok .done, m.update task)
  | .get taskId => (.ok (.task (m.get taskId)), m)
  | .listByProject p => (.ok (.tasks (m.listByProject p)), m)
  | .hasRunningTask p => (.ok (.flag (m.hasRunningTask p)), m)
  | .findIncomplete p => (.ok (.task (m.findIncomplete p)), m)
  | .enqueue task => (.ok .done, m.enqueue task)
  | .dequeue timeout => (.ok (.task (m.dequeue timeout).1), (m.dequeue timeout).2)

/-- The same call of the store or queue in Redis, with `update` taken as the writes of
`async_update`. -/
def redis [TaskJson Text] (S : Setup Event) : StoreOp → Py Text Event Unit StoreAnswer
  | .save task => do
    TaskStore.save S task
    return .done
  | .update task => do
    TaskStore.asyncUpdate S task
    return .done
  | .get taskId => return .task (← TaskStore.get taskId)
  | .listByProject p => return .tasks (← TaskStore.listByProject p)
  | .hasRunningTask p => return .flag (← TaskStore.hasRunningTask p)
  | .findIncomplete p => return .task (← TaskStore.findIncomplete p)
  | .enqueue task => do
    TaskQueue.enqueue task
    return .done
  | .dequeue _ => return .task (← TaskQueue.dequeue)

/-- A call by the rules of the callers: what is updated is stored, and stays in its project. -/
def Valid (m : InProcess) : StoreOp → Prop
  | .update task => ∃ t, m.get task.taskId = some t ∧ t.projectName = task.projectName
  | _ => True

end StoreOp

/-- The two answers to a call are the same; the tasks of a project up to their order, and of an
incomplete task whether there is one. -/
inductive Agree : StoreOp → Except Exc StoreAnswer → Except Exc StoreAnswer → Prop where
  | tasks (h : ts'.Perm ts) : Agree (.listByProject p) (.ok (.tasks ts)) (.ok (.tasks ts'))
  | hit (h : o'.isSome = o.isSome) : Agree (.findIncomplete p) (.ok (.task o)) (.ok (.task o'))
  | save : Agree (.save task) r r
  | update : Agree (.update task) r r
  | get : Agree (.get taskId) r r
  | hasRunningTask : Agree (.hasRunningTask p) r r
  | enqueue : Agree (.enqueue task) r r
  | dequeue : Agree (.dequeue timeout) r r

namespace InProcess
variable {m : InProcess}

/-- Every task is in the dictionary once, under its own id. -/
structure Keyed (m : InProcess) : Prop where
  nodup : (m.tasks.map Prod.fst).Nodup
  keyed : ∀ e ∈ m.tasks, e.2.taskId = e.1

theorem keyed_empty : empty.Keyed := ⟨List.nodup_nil, nofun⟩

theorem Keyed.taskId (h : m.Keyed) {id : String} {t : Task} (ht : m.get id = some t) :
    t.taskId = id := h.keyed _ (mem_of_lookup ht)

theorem get_update (m : InProcess) (task : Task) (id : String) :
    (m.update task).get id = if id = task.taskId then some task else m.get id :=
  lookup_dictSet ..

theorem save_of_some (S : Setup Event) {task t : Task} (ht : m.get task.taskId = some t) :
    m.save S task = (.error ⟨.value, s!"Task {S.repr task.taskId} already exists"⟩, m) :=
  if_pos (Option.isSome_iff_exists.2 ⟨t, ht⟩)

theorem save_of_none (S : Setup Event) {task : Task} (ht : m.get task.taskId = none) :
    m.save S task = (.ok (), m.update task) :=
  if_neg (Option.not_isSome_iff_eq_none.2 ht)

theorem dequeue_nil (hq : m.q = []) (timeout : Rat) : m.dequeue timeout = (none, m) := by
  rw [dequeue, hq, ite_self]

theorem dequeue_cons {timeout : Rat} {task : Task} {q : List Task} (ht : ¬timeout ≤ 0)
    (hq : m.q = task :: q) : m.dequeue timeout = (some task, { m with q := q }) := by
  rw [dequeue, if_neg ht, hq]

theorem Keyed.update (h : m.Keyed) (task : Task) : (m.update task).Keyed := by
  refine ⟨dictSet_nodup h.nodup, fun e he => ?_⟩
  have hget : (m.update task).get e.1 = some e.2 := lookup_of_mem (dictSet_nodup h.nodup) he
  rw [get_update] at hget
  split at hget
  · rename_i hid
    cases hget
    exact hid.symm
  · exact h.taskId hget

theorem Keyed.mem_listByProject (h : m.Keyed) {p : String} {t : Task} :
    t ∈ m.listByProject p ↔ m.get t.taskId = some t ∧ t.projectName = p := by
  rw [listByProject, List.mem_filter, decide_eq_true_iff]
  refine and_congr_left fun _ => ?_
  constructor
  · intro ht
    obtain ⟨e, he, rfl⟩ := List.mem_map.1 ht
    rw [h.keyed e he]
    exact lookup_of_mem h.nodup he
  · exact fun ht => List.mem_map.2 ⟨_, mem_of_lookup ht, rfl⟩

theorem Keyed.nodup_listByProject (h : m.Keyed) (p : String) : (m.listByProject p).Nodup := by
  apply List.Nodup.filter
  apply List.Nodup.of_map Task.taskId
  rw [List.map_map]
  have hmap : m.tasks.map (Task.taskId ∘ Prod.snd) = m.tasks.map Prod.fst :=
    List.map_congr_left fun e he => h.keyed e he
  rw [hmap]
  exact h.nodup

end InProcess

namespace StoreOp

/-- The task that a call puts into the queue. -/
def sent : StoreOp → Option Task
  | .enqueue task => some task
  | _ => none

/-- The task that a call with this answer takes from the queue. -/
def taken : StoreOp → Except Exc StoreAnswer → Option Task
  | .dequeue _, .ok (.task o) => o
  | _, _ => none

end StoreOp

theorem Agree.taken_eq {op : StoreOp} {a b : Except Exc StoreAnswer} (h : Agree op a b) :
    op.taken b = op.taken a := by
  cases h <;> rfl

/-- What is in the queue and what comes in is what goes out and what stays. -/
theorem InProcess.q_step (S : Setup Event) (m : InProcess) (op : StoreOp) :
    m.q ++ op.sent.toList =
      (op.taken (op.inProcess S m).1).toList ++ (op.inProcess S m).2.q := by
  cases op with
  | save task =>
    have hq : (m.save S task).2.q = m.q := by
      rw [save]
      split <;> rfl
    exact (List.append_nil _).trans hq.symm
  | enqueue task => rfl
  | dequeue timeout =>
    refine (List.append_nil _).trans ?_
    cases hq : m.q with
    | nil =>
      have hd := dequeue_nil hq timeout
      rw [StoreOp.inProcess, hd]
      exact hq.symm
    | cons task q =>
      by_cases ht : timeout ≤ 0
      · rw [StoreOp.inProcess, dequeue, if_pos ht]
        exact hq.symm
      · rw [StoreOp.inProcess, dequeue_cons ht hq]
        rfl
  | _ => exact List.append_nil _

end Orchestrator
