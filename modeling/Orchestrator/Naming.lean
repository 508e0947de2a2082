import Orchestrator.Keyspace
import Orchestrator.System
import Orchestrator.Concurrency.Contract

namespace Orchestrator
open Concurrency Async
set_option autoImplicit true

theorem replied {T : (c : Cmd Text Event) → c.Reply → Prop} {S : Cmd Text Event → Prop}
    {I : σ → Prop} {c : Cmd Text Event} (h : S c) : Under T S I (ask c) (T c) :=
  under_call h fun _ ha => ha

theorem asked {T : (c : Cmd Text Event) → c.Reply → Prop} {S : Cmd Text Event → Prop}
    {I : σ → Prop} {c : Cmd Text Event} (h : S c) : Under T S I (ask c) fun _ => True :=
  (replied h).any

theorem mem_of_mem_taskKeys {pages : List (Nat × List ScanKey)} {id : String}
    (h : id ∈ taskKeys pages) : ∃ page ∈ pages, ScanKey.task id ∈ page.2 := by
  have hkeys {keys : List ScanKey} (h : id ∈ keys.filterMap ScanKey.taskId) :
      ScanKey.task id ∈ keys := by
    obtain ⟨key, hk, hid⟩ := List.mem_filterMap.1 h
    cases key with
    | task id' =>
      cases hid
      exact hk
    | digest d => cases hid
  induction pages with
  | nil => cases h
  | cons page pages ih =>
    obtain ⟨cursor, keys⟩ := page
    have hrest (h : id ∈ taskKeys pages) :
        ∃ page ∈ (cursor, keys) :: pages, ScanKey.task id ∈ page.2 := by
      obtain ⟨page, hp, hid⟩ := ih h
      exact ⟨page, List.mem_cons_of_mem _ hp, hid⟩
    rw [taskKeys] at h
    split at h
    · exact ⟨_, List.mem_cons_self, hkeys h⟩
    · rcases List.mem_append.1 h with h | h
      · exact ⟨_, List.mem_cons_self, hkeys h⟩
      · exact hrest h

variable [TaskJson Text]

/-- Where task ids are in the replies to commands, they are of one kind. What a scan names need not
be stored. -/
def Named (N : String → Prop) : (c : Cmd Text Event) → c.Reply → Prop
  | .get _, o | .brpop, o => ∀ t : Task, o.bind parse = some t → N t.taskId
  | .smembers _, ids => ∀ id ∈ ids, N id
  | .getDigest _, o => ∀ id ∈ o, N id
  | .scan, pages => ∀ page ∈ pages, ∀ id, ScanKey.task id ∈ page.2 → Regular id
  | .uuid4, u => N u
  | _, _ => True

/-- Where task ids are in a command, they are of one kind, and what is written are tasks. What is
read may be any task whose id does not look like a digest. -/
def Cmd.Names (N : String → Prop) : Cmd Text Event → Prop
  | .get id => Regular id
  | .mget ids => ∀ id ∈ ids, Regular id
  | .set id x | .setNx id x => N id ∧ ∃ t : Task, t.taskId = id ∧ x = modelDumpJson t
  | .sadd _ id | .setDigest _ id => N id
  | .lpush x => ∃ t : Task, N t.taskId ∧ x = modelDumpJson t
  | _ => True

/-- An asynchronous function that keeps to one kind of task ids. -/
abbrev Naming (N : String → Prop) (I : σ → Prop) (p : Py Text Event σ α) (Q : α → Prop) : Prop :=
  Under (Named N) (Cmd.Names N) I p Q

/-- The task of a worker has an id of this kind. -/
def Carrying (N : String → Prop) (t : Task) : Prop := N t.taskId

section
variable {N : String → Prop} {I : σ → Prop}

theorem naming_tryExcept {p : Py Text Event σ α} {h : Exc → Py Text Event σ α} {Q : α → Prop}
    (hp : Naming N I p Q) (hh : ∀ e, Naming N I (h e) Q) : Naming N I (tryExcept p h) Q := by
  apply under_bind (Q := fun o => ∀ a, o = .ok a → Q a)
  · apply under_attempt
    · apply hp.mono
      rintro a ha _ ⟨⟩
      exact ha
    · exact fun e => nofun
  · intro o ho
    cases o with
    | ok a => exact under_pure (ho a rfl)
    | error e =>
      dsimp only
      split
      · exact hh e
      · exact under_raise e

end

section
variable {N : String → Prop} (hN : ∀ id, N id → Regular id)

abbrev Working (N : String → Prop) (p : Py Text Event Task α) : Prop :=
  Naming N (Carrying N) p fun _ => True

theorem working_pure {a : α} : Working N (Pure.pure a : Py Text Event Task α) := under_pure trivial

theorem working_mutate (f : Task → Task) (h : ∀ t, (f t).taskId = t.taskId) :
    Working N (mutate f : Py Text Event Task Unit) := by
  apply under_mutate
  intro t ht
  rw [Carrying, h t]
  exact ht

theorem working_check {p : Py Text Event Task Bool} (hp : Working N p) :
    Working N (Scheduler.check p) := naming_tryExcept hp fun _ => working_pure

theorem working_close : Working N (Worker.close : Py Text Event Task Unit) :=
  under_bind under_object fun _ _ => asked trivial

theorem working_transition (st : TaskStatus) (detail : String) :
    Working N (Worker.transition st detail : Py Text Event Task Unit) :=
  under_seq (asked trivial) fun _ => working_mutate _ fun _ => rfl

theorem working_apply (mode : TaskMode) :
    Working N (Scheduler.apply mode : Py Text Event Task TaskMode) := by
  apply under_seq (asked trivial)
  intro now
  exact under_seq (working_mutate _ fun _ => rfl) fun _ => working_pure

theorem working_hasCheckpoint (project : String) :
    Working N (Scheduler.hasCheckpoint project : Py Text Event Task Bool) :=
  working_check (under_seq (asked trivial) fun _ => asked trivial)

theorem working_decide : Working N (Scheduler.decide S : Py Text Event Task TaskMode) := by
  apply under_bind under_object
  intro t _
  split
  · apply under_seq (working_hasCheckpoint _)
    intro b
    split
    · exact working_apply _
    · exact under_raise _
  · apply under_seq (working_check (asked trivial))
    intro b
    split
    · apply under_seq (working_hasCheckpoint _)
      intro b
      split
      · exact working_apply _
      · exact working_apply _
    · exact working_apply _

theorem naming_asyncUpdate {I : σ → Prop} {S : Setup Event} {t : Task} (ht : N t.taskId) :
    Naming N I (TaskStore.asyncUpdate S t : Py Text Event σ Unit) fun _ => True := by
  apply under_bind (asked ⟨ht, t, rfl, rfl⟩)
  intro _ _
  split
  · exact asked trivial
  · exact under_pure trivial

theorem naming_enqueue {I : σ → Prop} {t : Task} (ht : N t.taskId) :
    Naming N I (TaskQueue.enqueue t : Py Text Event σ Unit) fun _ => True :=
  asked ⟨t, ht, rfl⟩

variable {S : Setup Event}

theorem working_update : Working N (Worker.update S : Py Text Event Task Unit) :=
  under_bind under_object fun _ ht => naming_asyncUpdate ht

theorem working_reject (detail : String) :
    Working N (Worker.reject S detail : Py Text Event Task Unit) := by
  apply under_seq (working_transition _ _)
  intro _
  exact under_seq working_update fun _ => working_close

theorem working_handleRetriable (exc : Exc) :
    Working N (Worker.handleRetriable S exc : Py Text Event Task Unit) := by
  apply under_bind under_object
  intro t _
  split
  · apply under_seq
    · exact working_mutate _ fun _ => rfl
    · intro _
      apply under_seq (working_transition _ _)
      intro _
      apply under_seq working_update
      intro _
      exact under_bind under_object fun u hu => naming_enqueue hu
  · exact working_reject _

theorem working_stream (mode : TaskMode) :
    Working N (Worker.stream S mode : Py Text Event Task Unit) := by
  apply under_bind under_object
  intro t _
  apply under_seq (asked trivial)
  intro it
  apply under_seq (asked trivial)
  intro n
  apply under_seq (under_attempt_any (asked trivial))
  intro o
  cases o with
  | ok _ => exact working_pure
  | error e =>
    dsimp only
    split
    · exact under_raise _
    · exact under_raise _

theorem working_attemptStream (mode : TaskMode) :
    Working N (Worker.attemptStream S mode : Py Text Event Task Unit) := by
  apply under_seq
  · apply under_attempt_any
    apply under_seq (working_stream mode)
    intro _
    exact under_seq (working_transition _ _) fun _ => working_update
  · intro o
    cases o with
    | ok _ => exact working_close
    | error e =>
      dsimp only
      split
      · exact working_reject _
      · exact under_seq working_close fun _ => working_handleRetriable e
      · exact under_raise e
      · exact under_raise e
      · apply under_seq (working_transition _ _)
        intro _
        apply under_seq working_update
        intro _
        exact under_seq working_close fun _ => under_raise e
      · exact working_reject _

theorem working_runLocked : Working N (Worker.runLocked S : Py Text Event Task Unit) := by
  apply under_bind under_object
  intro t _
  apply under_seq (under_attempt_any (asked trivial))
  intro o
  cases o with
  | error e =>
    dsimp only
    split
    · exact working_reject _
    · exact under_raise e
  | ok _ =>
    apply under_seq (under_attempt_any working_decide)
    intro o
    cases o with
    | error e =>
      dsimp only
      split
      · exact working_reject _
      · exact under_raise e
    | ok mode =>
      apply under_seq (working_transition _ _)
      intro _
      exact under_seq working_update fun _ => working_attemptStream mode

theorem working_guarded : Working N (Worker.guarded S : Py Text Event Task Unit) := by
  apply under_seq (under_attempt_any working_runLocked)
  intro o
  cases o with
  | ok _ => exact working_pure
  | error e =>
    dsimp only
    split
    · apply under_bind under_object
      intro t _
      exact under_seq (asked trivial) fun _ => working_handleRetriable _
    · exact under_raise e

theorem working_cleanUp (project token : String) :
    Working N (Worker.cleanUp project token : Py Text Event Task Unit) := by
  apply under_seq (asked trivial)
  intro _
  exact under_seq (under_attempt_any (asked trivial)) fun _ => asked trivial

theorem working_execute : Working N (Worker.execute S : Py Text Event Task Unit) := by
  apply under_bind under_object
  intro t ht
  apply under_seq (asked trivial)
  intro token
  apply under_seq (asked trivial)
  intro b
  split
  · apply under_seq (asked trivial)
    intro _
    exact under_ensure working_guarded (working_cleanUp _ _)
  · apply under_seq (asked trivial)
    intro _
    exact under_seq (naming_enqueue ht) fun _ => asked trivial

theorem naming_turn {I : Unit → Prop} :
    Naming N I (Worker.turn S : Py Text Event Unit Unit) fun _ => True := by
  apply under_bind (Q := fun o => ∀ t ∈ o, N t.taskId)
  · apply under_bind (replied trivial)
    intro o ho
    cases o with
    | none => exact under_pure nofun
    | some raw => exact under_pure ho
  · intro o ho
    cases o with
    | none => exact under_pure trivial
    | some t => exact under_on (ho t rfl) working_execute

theorem naming_get {I : σ → Prop} {id : String} (hid : Regular id) :
    Naming N I (TaskStore.get id : Py Text Event σ (Option Task)) fun _ => True := by
  apply under_seq (asked hid)
  intro o
  cases o with
  | none => exact under_pure trivial
  | some raw =>
    dsimp only
    split
    · exact under_pure trivial
    · exact under_raise _

theorem naming_save {I : σ → Prop} {t : Task} (ht : N t.taskId) :
    Naming N I (TaskStore.save S t : Py Text Event σ Unit) fun _ => True := by
  have hrest : Naming N I (do
      ask (.sadd t.projectName t.taskId)
      if t.requirement ≠ "" then
        ask (.setDigest (digestKey S t.projectName t.requirement) t.taskId) :
      Py Text Event σ Unit) fun _ => True := by
    apply under_seq
    · exact asked ht
    · intro _
      split
      · exact asked ht
      · exact under_pure trivial
  apply under_seq
  · exact asked ⟨ht, t, rfl, rfl⟩
  · intro b
    cases b with
    | true => exact hrest
    | false => exact under_seq (under_raise _) fun _ => hrest

theorem naming_newTask {I : σ → Prop} (body : TaskCreateRequest) :
    Naming N I (newTask body : Py Text Event σ Task) fun t => N t.taskId := by
  apply under_bind (replied trivial)
  intro id hid
  apply under_seq (asked trivial)
  intro createdAt
  apply under_seq (asked trivial)
  intro updatedAt
  exact under_pure hid

theorem naming_recoverKey {I : σ → Prop} {id : String} (hid : Regular id) :
    Naming N I (recoverKey S id : Py Text Event σ Bool) fun _ => True := by
  apply under_bind
  · exact replied hid
  · intro o ho
    cases o with
    | none => exact under_pure trivial
    | some raw =>
      dsimp only
      split
      · exact under_pure trivial
      · rename_i t ht
        have hn : N t.taskId := ho t (parse_eq_some.2 ht)
        split
        · exact under_pure trivial
        · split
          · apply under_seq (asked trivial)
            intro now
            apply under_seq
            · exact naming_asyncUpdate hn
            · intro _
              exact under_seq (naming_enqueue hn) fun _ => under_pure trivial
          · exact under_seq (naming_enqueue hn) fun _ => under_pure trivial

theorem naming_recoverKeys {I : σ → Prop} {ids : List String} (hids : ∀ id ∈ ids, Regular id)
    (n : Nat) : Naming N I (recoverKeys S ids n : Py Text Event σ Nat) fun _ => True := by
  induction ids generalizing n with
  | nil => exact under_pure trivial
  | cons id ids ih =>
    apply under_seq (naming_recoverKey (hids id List.mem_cons_self))
    exact fun _ => ih (fun id' hid' => hids id' (List.mem_cons_of_mem _ hid')) _

theorem naming_recoverStrandedTasks {I : σ → Prop} :
    Naming N I (recoverStrandedTasks S : Py Text Event σ Nat) fun _ => True := by
  apply under_bind (replied trivial)
  intro pages hpages
  apply naming_recoverKeys
  intro id hid
  obtain ⟨page, hp, hk⟩ := mem_of_mem_taskKeys hid
  exact hpages page hp id hk

include hN

theorem naming_listByProject {I : σ → Prop} (project : String) :
    Naming N I (TaskStore.listByProject project : Py Text Event σ (List Task)) fun _ => True := by
  apply under_bind (replied trivial)
  intro ids hids
  split
  · exact under_pure trivial
  · apply under_seq
    · exact asked fun id hid => hN id (hids id hid)
    · exact fun _ => under_pure trivial

theorem naming_findExisting {I : σ → Prop} (body : TaskCreateRequest) :
    Naming N I (findExisting S body : Py Text Event σ (Option Task)) fun _ => True := by
  apply under_seq
  · exact under_seq (naming_listByProject hN _) fun _ => under_pure trivial
  · intro o
    cases o with
    | some t => exact under_pure trivial
    | none =>
      apply under_bind (replied trivial)
      intro o ho
      cases o with
      | none => exact under_pure trivial
      | some id => exact naming_get (hN id (ho id rfl))

theorem naming_createTask {I : σ → Prop} (body : TaskCreateRequest) :
    Naming N I (createTask S body : Py Text Event σ TaskResponse) fun _ => True := by
  apply under_seq (naming_findExisting hN body)
  intro o
  cases o with
  | some t => exact under_pure trivial
  | none =>
    apply under_bind (naming_newTask body)
    intro t ht
    apply under_seq (naming_save ht)
    intro _
    exact under_seq (naming_enqueue ht) fun _ => under_pure trivial

theorem naming_run (q : Kind) :
    Naming N (fun _ => True) (q.run S : Py Text Event Unit Returned) fun _ => True := by
  cases q with
  | recover => exact under_seq naming_recoverStrandedTasks fun _ => under_pure trivial
  | worker => exact under_seq naming_turn fun _ => under_pure trivial
  | request body => exact under_seq (naming_createTask hN body) fun _ => under_pure trivial

end

end Orchestrator
