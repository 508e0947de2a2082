import Orchestrator.Task

namespace Orchestrator
set_option autoImplicit true

/-- The value of a lock key and the seconds it has left. -/
structure Lock where
  token : String
  ttl : Nat
  deriving DecidableEq, Repr

/-- The keys the orchestrator writes, one field for each family. The queue is pushed to on the
left and popped from on the right. `published` lists the Pub/Sub messages in order. -/
structure Redis (Text : Type) where
  tasks : AList fun _ : String => Text
  projectTasks : String → List String
  digests : String → Option String
  locks : String → Option Lock
  queue : List Text
  published : List (String × String)

def Redis.empty : Redis Text where
  tasks := ∅
  projectTasks := fun _ => []
  digests := fun _ => none
  locks := fun _ => none
  queue := []
  published := []

namespace Redis

def set (r : Redis Text) (id : String) (x : Text) : Redis Text :=
  { r with tasks := r.tasks.insert id x }

def sadd (r : Redis Text) (project id : String) : Redis Text :=
  { r with projectTasks :=
      Function.update r.projectTasks project ((r.projectTasks project).insert id) }

def setDigest (r : Redis Text) (h : String) (id : Option String) : Redis Text :=
  { r with digests := Function.update r.digests h id }

def setLock (r : Redis Text) (project : String) (l : Option Lock) : Redis Text :=
  { r with locks := Function.update r.locks project l }

def lpush (r : Redis Text) (x : Text) : Redis Text := { r with queue := x :: r.queue }

def publish (r : Redis Text) (channel data : String) : Redis Text :=
  { r with published := r.published ++ [(channel, data)] }

/-- Does the lock key of the project carry this token? -/
def holds (r : Redis Text) (project token : String) : Bool :=
  (r.locks project).any fun l => l.token = token

/-- The script of `_release_lock`: compare and delete. -/
def evalRelease (r : Redis Text) (project token : String) : Redis Text :=
  if r.holds project token then r.setLock project none else r

/-- The script of `_refresh_lock`: compare and set the time to live. -/
def evalRefresh (r : Redis Text) (project token : String) (ttl : Nat) : Redis Text :=
  if r.holds project token then r.setLock project (some ⟨token, ttl⟩) else r

section
variable [TaskJson Text]

/-- The stored record of a task, where it parses. -/
def record (r : Redis Text) (id : String) : Option Task := (r.tasks.lookup id).bind parse

/-- The tasks in the queue. -/
def queued (r : Redis Text) : List Task := r.queue.filterMap parse

theorem record_set_dump (r : Redis Text) (id : String) (t : Task) :
    (r.set id (modelDumpJson t)).record = Function.update r.record id (some t) := by
  funext id'
  unfold record set
  by_cases h : id' = id
  · subst h
    simp only [AList.lookup_insert, Option.bind_some, parse_dump, Function.update_self]
  · simp only [AList.lookup_insert_ne h, Function.update_of_ne h]

/-- A record that is written under its own id. -/
theorem keyed_set_dump {r : Redis Text} (hk : ∀ id u, r.record id = some u → u.taskId = id)
    (t : Task) (id : String) (u : Task)
    (hu : (r.set t.taskId (modelDumpJson t)).record id = some u) : u.taskId = id := by
  rw [record_set_dump] at hu
  by_cases he : id = t.taskId
  · subst he
    rw [Function.update_self] at hu
    cases hu
    rfl
  · rw [Function.update_of_ne he] at hu
    exact hk id u hu

theorem mem_keys_of_record {r : Redis Text} {id : String} {t : Task} (h : r.record id = some t) :
    id ∈ r.tasks.keys := by
  obtain ⟨x, hx, _⟩ := Option.bind_eq_some_iff.1 h
  exact AList.mem_keys.1 (AList.lookup_isSome.1 (hx ▸ rfl))

@[simp] theorem queued_set (r : Redis Text) (id : String) (x : Text) :
    (r.set id x).queued = r.queued := rfl

@[simp] theorem record_lpush (r : Redis Text) (x : Text) : (r.lpush x).record = r.record := rfl

@[simp] theorem queued_lpush_dump (r : Redis Text) (t : Task) :
    (r.lpush (modelDumpJson t)).queued = t :: r.queued := by
  simp only [queued, lpush, List.filterMap_cons, parse_dump]

theorem queued_getLast {r : Redis Text} {x : Text} (h : r.queue.getLast? = some x) :
    r.queued = ({ r with queue := r.queue.dropLast } : Redis Text).queued ++ (parse x).toList := by
  have he : r.queue = r.queue.dropLast ++ [x] := (List.dropLast_append_getLast? x h).symm
  unfold queued
  rw [he, List.filterMap_append, List.dropLast_concat]
  cases hx : parse x <;> simp only [List.filterMap_cons, List.filterMap_nil, hx, Option.toList]

end

@[simp] theorem evalRelease_tasks (r : Redis Text) (p τ : String) :
    (r.evalRelease p τ).tasks = r.tasks := by
  unfold evalRelease; split <;> rfl

@[simp] theorem evalRelease_queue (r : Redis Text) (p τ : String) :
    (r.evalRelease p τ).queue = r.queue := by
  unfold evalRelease; split <;> rfl

end Redis

end Orchestrator
