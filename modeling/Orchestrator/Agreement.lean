import Orchestrator.InProcess
import Orchestrator.Lookup

namespace Orchestrator
open Concurrency Async Python
set_option autoImplicit true

variable [TaskJson Text]

/-- Redis holds the records of the stored tasks, the set of their ids for each project, and the
queue, with the next task last. -/
structure Mirrors (m : InProcess) (K : Keyspace Text) : Prop where
  keyed : m.Keyed
  stored : ∀ id t, m.get id = some t → K (taskKey id) = some (.string (modelDumpJson t) none)
  index : ∀ p, ∃ ids, K.members (projectTasksKey p) = .ok ids ∧ ids.Nodup ∧
    ∀ id, id ∈ ids ↔ ∃ t, m.get id = some t ∧ t.projectName = p
  queue : K.items queueKey = .ok (m.q.reverse.map modelDumpJson)

theorem mirrors_empty : Mirrors .empty (fun _ => none : Keyspace Text) where
  keyed := InProcess.keyed_empty
  stored _ _ ht := by cases ht
  index _ := ⟨[], rfl, List.nodup_nil, fun _ => ⟨nofun, fun ⟨_, ht, _⟩ => by cases ht⟩⟩
  queue := rfl

/-- The calls that a key of another purpose does not meddle with: the key of the task id is free
unless the task is stored, and the key of a digest is not that of a stored task. No one waits for
less than some time, unless there is nothing to wait for. -/
def StoreOp.Plain (S : Setup Event) (m : InProcess) (K : Keyspace Text) : StoreOp → Prop
  | .save task => m.get task.taskId = none → K (taskKey task.taskId) = none ∧
      (task.requirement ≠ "" → (m.update task).get
        ("digest:" ++ digestKey S task.projectName task.requirement) = none)
  | .update task => task.isTerminal → task.requirement ≠ "" →
      m.get ("digest:" ++ digestKey S task.projectName task.requirement) = none
  | .get taskId => m.get taskId = none → K (taskKey taskId) = none
  | .dequeue timeout => timeout ≤ 0 → m.q = []
  | _ => True

namespace Mirrors
variable {m : InProcess} {K K' : Keyspace Text}

/-- A digest key that is not the key of a stored task can be written. -/
theorem digest (h : Mirrors m K) {d : String} (hd : m.get ("digest:" ++ d) = none)
    (hK : ∀ key, key ≠ dedupKey d → K' key = K key) : Mirrors m K' where
  keyed := h.keyed
  stored id t ht := by
    have hne : taskKey id ≠ dedupKey d := by
      intro he
      rw [taskKey_eq_dedupKey.1 he, hd] at ht
      cases ht
    rw [hK _ hne]
    exact h.stored id t ht
  index p := by
    rw [Keyspace.members_congr (hK _ (dedupKey_ne_projectTasksKey d p).symm)]
    exact h.index p
  queue := by
    have hne : queueKey ≠ dedupKey d := (KeyName.key_ne_queueKey (n := ⟨.digest, d⟩) nofun).symm
    rw [Keyspace.items_congr (hK _ hne)]
    exact h.queue

theorem stored_put (h : Mirrors m K) (task : Task) (id : String) (t : Task)
    (ht : (m.update task).get id = some t) :
    K.put (taskKey task.taskId) (.string (modelDumpJson task) none) (taskKey id) =
      some (.string (modelDumpJson t) none) := by
  rw [InProcess.get_update] at ht
  by_cases hid : id = task.taskId
  · rw [if_pos hid] at ht
    cases ht
    rw [hid, Keyspace.put_self]
  · rw [if_neg hid] at ht
    rw [Keyspace.put_of_ne (mt taskKey_inj.1 hid)]
    exact h.stored id t ht

theorem queue_put (h : Mirrors m K) (id : String) (v : RedisValue Text) :
    (K.put (taskKey id) v).items queueKey = .ok (m.q.reverse.map modelDumpJson) := by
  have hne : queueKey ≠ taskKey id := (KeyName.key_ne_queueKey (n := ⟨.task, id⟩) nofun).symm
  rw [Keyspace.items_congr (Keyspace.put_of_ne hne)]
  exact h.queue

/-- The record of a stored task is replaced, in the same project. -/
theorem update (h : Mirrors m K) {task t : Task} (ht : m.get task.taskId = some t)
    (hp : t.projectName = task.projectName) :
    Mirrors (m.update task) (K.put (taskKey task.taskId) (.string (modelDumpJson task) none)) where
  keyed := h.keyed.update task
  stored := h.stored_put task
  index p := by
    rw [Keyspace.members_congr (Keyspace.put_of_ne (taskKey_ne_projectTasksKey _ _).symm)]
    obtain ⟨ids, hids, hn, hmem⟩ := h.index p
    refine ⟨ids, hids, hn, fun id => (hmem id).trans ?_⟩
    rw [InProcess.get_update]
    by_cases hid : id = task.taskId
    · subst hid
      rw [if_pos rfl, ht]
      constructor
      · rintro ⟨_, ⟨⟩, rfl⟩
        exact ⟨task, rfl, hp.symm⟩
      · rintro ⟨_, ⟨⟩, rfl⟩
        exact ⟨t, rfl, hp⟩
    · rw [if_neg hid]
  queue := h.queue_put _ _

/-- The record of a new task is written, and its id added to the set of its project. -/
theorem register (h : Mirrors m K) {task : Task} (ht : m.get task.taskId = none)
    {ids : List String} (hids : K.members (projectTasksKey task.projectName) = .ok ids) :
    Mirrors (m.update task) ((K.put (taskKey task.taskId) (.string (modelDumpJson task) none)).put
      (projectTasksKey task.projectName) (.set (ids.insert task.taskId))) where
  keyed := h.keyed.update task
  stored id t hid := by
    rw [Keyspace.put_of_ne (taskKey_ne_projectTasksKey _ _)]
    exact h.stored_put task id t hid
  index p := by
    obtain ⟨ids', hids', hn, hmem⟩ := h.index p
    have hnew (id : String) : (∃ t, (m.update task).get id = some t ∧ t.projectName = p) ↔
        id = task.taskId ∧ task.projectName = p ∨ id ∈ ids' := by
      rw [hmem, InProcess.get_update]
      by_cases hid : id = task.taskId
      · subst hid
        rw [if_pos rfl, ht]
        exact ⟨fun ⟨_, hs, hp⟩ => .inl ⟨rfl, by cases hs; exact hp⟩,
          fun hs => ⟨task, rfl, hs.elim And.right fun ⟨_, hs, _⟩ => (by cases hs)⟩⟩
      · rw [if_neg hid, or_iff_right fun hs => hid hs.1]
    by_cases hp : task.projectName = p
    · subst hp
      cases hids.symm.trans hids'
      refine ⟨ids.insert task.taskId, ?_, hn.insert, fun id => ?_⟩
      · rw [Keyspace.members, Keyspace.put_self]
      · rw [hnew, List.mem_insert_iff, and_iff_left rfl]
    · refine ⟨ids', ?_, hn, fun id => ?_⟩
      · rw [Keyspace.members_congr (Keyspace.put_of_ne (mt projectTasksKey_inj.1 (Ne.symm hp))),
          Keyspace.members_congr (Keyspace.put_of_ne (taskKey_ne_projectTasksKey _ _).symm)]
        exact hids'
      · rw [hnew, or_iff_right fun hs => hp hs.2]
  queue := by
    have hne : queueKey ≠ projectTasksKey task.projectName :=
      (KeyName.key_ne_queueKey (n := ⟨.projectTasks, task.projectName⟩) nofun).symm
    rw [Keyspace.items_congr (Keyspace.put_of_ne hne)]
    exact h.queue_put _ _

/-- The list of the queue is written. -/
theorem putQueue (h : Mirrors m K) (q : List Task) :
    Mirrors { m with q := q } (K.putItems queueKey (q.reverse.map modelDumpJson)) where
  keyed := ⟨h.keyed.nodup, h.keyed.keyed⟩
  stored id t ht := by
    have hne : taskKey id ≠ queueKey := KeyName.key_ne_queueKey (n := ⟨.task, id⟩) nofun
    rw [Keyspace.putItems_of_ne hne]
    exact h.stored id t ht
  index p := by
    have hne : projectTasksKey p ≠ queueKey :=
      KeyName.key_ne_queueKey (n := ⟨.projectTasks, p⟩) nofun
    rw [Keyspace.members_congr (Keyspace.putItems_of_ne hne)]
    exact h.index p
  queue := Keyspace.items_putItems

/-- The pipeline that reads the records of stored tasks. -/
theorem mapM_get (h : Mirrors m K) {ids : List String} (hids : ∀ id ∈ ids, m.get id ≠ none) :
    ids.mapM (fun id => K.get (taskKey id)) =
      .ok (ids.map fun id => (m.get id).map modelDumpJson) := by
  induction ids with
  | nil => rfl
  | cons id ids ih =>
    obtain ⟨t, ht⟩ := Option.ne_none_iff_exists'.1 (hids id List.mem_cons_self)
    have hr : K.get (taskKey id) = .ok (some (modelDumpJson t)) := by
      rw [Keyspace.get, h.stored id t ht]
    rw [List.mapM_cons, hr, ih fun id hid => hids id (List.mem_cons_of_mem _ hid), List.map_cons,
      ht]
    rfl

theorem filterMap_parse (m : InProcess) (ids : List String) :
    (ids.map fun id => (m.get id).map (modelDumpJson : Task → Text)).filterMap (·.bind parse) =
      ids.filterMap m.get := by
  rw [List.filterMap_map]
  refine List.filterMap_congr fun id _ => ?_
  rw [Function.comp_apply]
  cases m.get id with
  | none => rfl
  | some t => exact parse_dump t

theorem perm_listByProject (h : Mirrors m K) {p : String} {ids : List String} (hn : ids.Nodup)
    (hmem : ∀ id, id ∈ ids ↔ ∃ t, m.get id = some t ∧ t.projectName = p) :
    (ids.filterMap m.get).Perm (m.listByProject p) := by
  have hn' : (ids.filterMap m.get).Nodup := by
    apply hn.filterMap
    intro id id' t ht ht'
    rw [← h.keyed.taskId ht, h.keyed.taskId ht']
  apply (List.perm_ext_iff_of_nodup hn' (h.keyed.nodup_listByProject p)).2
  intro t
  rw [List.mem_filterMap, h.keyed.mem_listByProject]
  constructor
  · rintro ⟨id, hid, ht⟩
    obtain ⟨u, hu, hp⟩ := (hmem id).1 hid
    cases hu.symm.trans ht
    rw [h.keyed.taskId ht]
    exact ⟨ht, hp⟩
  · rintro ⟨ht, hp⟩
    exact ⟨t.taskId, (hmem _).2 ⟨t, ht, hp⟩, ht⟩

end Mirrors

variable [RawText Text]

namespace Mirrors
variable {S : Setup Event} {m : InProcess} {K : Keyspace Text} (h : Mirrors m K)
include h

theorem get_ends {taskId : String} (hk : m.get taskId = none → K (taskKey taskId) = none) :
    ((TaskStore.get taskId : Py Text Event Unit (Option Task)) ()).Ends Keyspace.exec K
      fun o K' => o.1 = .ok (m.get taskId) ∧ K' = K := by
  cases ht : m.get taskId with
  | none =>
    have hr : K.get (taskKey taskId) = .ok none := by rw [Keyspace.get, hk ht]
    exact (ends_reply fun _ _ => Keyspace.exec_get hr).2 ⟨rfl, rfl⟩
  | some t =>
    have hr : K.get (taskKey taskId) = .ok (some (modelDumpJson t)) := by
      rw [Keyspace.get, h.stored _ t ht]
    refine (ends_reply fun _ _ => Keyspace.exec_get hr).2 ?_
    simp only [validate_dump]
    exact ⟨rfl, rfl⟩

theorem listByProject_ends (p : String) :
    ((TaskStore.listByProject p : Py Text Event Unit (List Task)) ()).Ends Keyspace.exec K
      fun o K' => (∃ ts, o.1 = .ok ts ∧ ts.Perm (m.listByProject p)) ∧ K' = K := by
  obtain ⟨ids, hids, hn, hmem⟩ := h.index p
  refine ⟨⟨.ok ids, K, ?_⟩, fun r K₁ hr => ?_⟩
  · rw [Keyspace.exec, hids]
    exact ⟨⟨ids, rfl, .refl _⟩, rfl⟩
  · rw [Keyspace.exec, hids] at hr
    obtain ⟨⟨ids', rfl, hp⟩, rfl⟩ := hr
    have hmem' (id : String) : id ∈ ids' ↔ ∃ t, m.get id = some t ∧ t.projectName = p :=
      hp.mem_iff.trans (hmem id)
    have hperm := h.perm_listByProject (hp.nodup_iff.2 hn) hmem'
    cases ids' with
    | nil => exact ⟨⟨[], rfl, hperm⟩, rfl⟩
    | cons id ids' =>
      have hraws := h.mapM_get fun id hid hnone => by
        obtain ⟨t, ht, -⟩ := (hmem' id).1 hid
        cases hnone.symm.trans ht
      refine (ends_reply fun _ _ => Keyspace.exec_mget hraws).2 ⟨⟨_, rfl, ?_⟩, rfl⟩
      rw [filterMap_parse]
      exact hperm

theorem hasRunningTask_ends (p : String) :
    ((TaskStore.hasRunningTask p : Py Text Event Unit Bool) ()).Ends Keyspace.exec K
      fun o K' => o.1 = .ok (m.hasRunningTask p) ∧ K' = K := by
  refine ends_map.2 ((h.listByProject_ends p).mono ?_)
  rintro ⟨_, _⟩ K' ⟨⟨ts, rfl, hp⟩, rfl⟩
  refine ⟨congrArg Except.ok ?_, rfl⟩
  exact hp.any_eq

theorem findIncomplete_ends (p : String) :
    ((TaskStore.findIncomplete p : Py Text Event Unit (Option Task)) ()).Ends Keyspace.exec K
      fun o K' => (∃ found, o.1 = .ok found ∧ found.isSome = (m.findIncomplete p).isSome) ∧
        K' = K := by
  refine ends_map.2 ((h.listByProject_ends p).mono ?_)
  rintro ⟨_, _⟩ K' ⟨⟨ts, rfl, hp⟩, rfl⟩
  refine ⟨⟨_, rfl, ?_⟩, rfl⟩
  rw [InProcess.findIncomplete, Bool.eq_iff_iff, List.find?_isSome, List.find?_isSome]
  exact exists_congr fun t => and_congr_left fun _ => hp.mem_iff

theorem save_ends {task : Task} (hp : (StoreOp.save task).Plain S m K) :
    ((TaskStore.save S task : Py Text Event Unit Unit) ()).Ends Keyspace.exec K
      fun o K' => o.1 = (m.save S task).1 ∧ Mirrors (m.save S task).2 K' := by
  cases ht : m.get task.taskId with
  | some t =>
    have hne : K (taskKey task.taskId) ≠ none := by
      rw [h.stored _ t ht]
      exact nofun
    rw [InProcess.save_of_some S ht]
    exact (ends_reply fun _ _ => Keyspace.exec_setNx_of_ne hne).2 ⟨rfl, h⟩
  | none =>
    obtain ⟨hfree, hd⟩ := hp ht
    rw [InProcess.save_of_none S ht]
    obtain ⟨ids, hids, -, -⟩ := h.index task.projectName
    have hm : Mirrors (m.update task) _ := h.register ht hids
    have hids' := (Keyspace.members_congr (K := K) (Keyspace.put_of_ne
      (v := .string (modelDumpJson task) none)
      (taskKey_ne_projectTasksKey task.taskId task.projectName).symm)).trans hids
    refine (ends_reply fun _ _ => Keyspace.exec_setNx hfree).2 ?_
    refine (ends_reply fun _ _ => Keyspace.exec_sadd hids').2 ?_
    by_cases hreq : task.requirement = ""
    · rw [if_neg (not_not.2 hreq)]
      exact ⟨rfl, hm⟩
    · rw [if_pos hreq]
      refine (ends_call fun _ _ => Keyspace.exec_setDigest).2 ⟨rfl, ?_⟩
      exact hm.digest (hd hreq) fun key hk => Keyspace.put_of_ne hk

theorem asyncUpdate_ends {task : Task} (hv : (StoreOp.update task).Valid m)
    (hp : (StoreOp.update task).Plain S m K) :
    ((TaskStore.asyncUpdate S task : Py Text Event Unit Unit) ()).Ends Keyspace.exec K
      fun o K' => o.1 = .ok () ∧ Mirrors (m.update task) K' := by
  obtain ⟨t, ht, hproject⟩ := hv
  have hm : Mirrors (m.update task) _ := h.update ht hproject
  refine (ends_reply fun _ _ => Keyspace.exec_set).2 ?_
  by_cases hd : task.isTerminal ∧ task.requirement ≠ ""
  · rw [if_pos hd]
    refine (ends_call fun _ _ => Keyspace.exec_delDigest).2 ⟨rfl, ?_⟩
    refine hm.digest ?_ fun key hk => Keyspace.del_of_ne hk
    have hfree := hp hd.1 hd.2
    rw [InProcess.get_update, if_neg ?_]
    · exact hfree
    · intro hid
      rw [hid, ht] at hfree
      cases hfree
  · rw [if_neg hd]
    exact ⟨rfl, hm⟩

theorem enqueue_ends (task : Task) :
    ((TaskQueue.enqueue task : Py Text Event Unit Unit) ()).Ends Keyspace.exec K
      fun o K' => o.1 = .ok () ∧ Mirrors (m.enqueue task) K' := by
  refine (ends_call fun _ _ => Keyspace.exec_lpush h.queue).2 ⟨rfl, ?_⟩
  have hq : modelDumpJson task :: m.q.reverse.map modelDumpJson =
      ((m.q ++ [task]).reverse.map modelDumpJson : List Text) := by
    rw [List.reverse_append]
    rfl
  rw [hq]
  exact h.putQueue (m.q ++ [task])

theorem dequeue_ends {timeout : Rat} (hp : (StoreOp.dequeue timeout).Plain S m K) :
    ((TaskQueue.dequeue : Py Text Event Unit (Option Task)) ()).Ends Keyspace.exec K
      fun o K' => o.1 = .ok (m.dequeue timeout).1 ∧ Mirrors (m.dequeue timeout).2 K' := by
  refine (ends_reply fun _ _ => Keyspace.exec_brpop h.queue).2 ?_
  cases hq : m.q with
  | nil =>
    rw [InProcess.dequeue_nil hq]
    have hm := h.putQueue []
    have he : { m with q := [] } = m := by rw [← hq]
    rw [he] at hm
    exact ⟨rfl, hm⟩
  | cons task q =>
    have ht : ¬timeout ≤ 0 := by
      intro ht
      cases (hp ht).symm.trans hq
    rw [InProcess.dequeue_cons ht hq, List.reverse_cons, List.map_append, List.map_singleton,
      List.getLast?_concat, List.dropLast_concat]
    exact ⟨congrArg Except.ok (parse_dump task), h.putQueue q⟩

/-- A call gives the same answer in Redis, and leaves Redis with what the in-process store and
queue have. -/
theorem redis_ends {op : StoreOp} (hv : op.Valid m) (hp : op.Plain S m K) :
    (op.redis S () : Coro (Cmd Text Event) Cmd.Answer _).Ends Keyspace.exec K fun o K' =>
      Agree op (op.inProcess S m).1 o.1 ∧ Mirrors (op.inProcess S m).2 K' := by
  cases op with
  | save task =>
    refine ends_map.2 ((h.save_ends hp).mono ?_)
    rintro ⟨_, _⟩ K' ⟨rfl, hm⟩
    exact ⟨.save, hm⟩
  | update task =>
    refine ends_map.2 ((h.asyncUpdate_ends hv hp).mono ?_)
    rintro ⟨_, _⟩ K' ⟨rfl, hm⟩
    exact ⟨.update, hm⟩
  | get taskId =>
    refine ends_map.2 ((h.get_ends hp).mono ?_)
    rintro ⟨_, _⟩ K' ⟨rfl, rfl⟩
    exact ⟨.get, h⟩
  | listByProject p =>
    refine ends_map.2 ((h.listByProject_ends p).mono ?_)
    rintro ⟨_, _⟩ K' ⟨⟨ts, rfl, hperm⟩, rfl⟩
    exact ⟨.tasks hperm, h⟩
  | hasRunningTask p =>
    refine ends_map.2 ((h.hasRunningTask_ends p).mono ?_)
    rintro ⟨_, _⟩ K' ⟨rfl, rfl⟩
    exact ⟨.hasRunningTask, h⟩
  | findIncomplete p =>
    refine ends_map.2 ((h.findIncomplete_ends p).mono ?_)
    rintro ⟨_, _⟩ K' ⟨⟨found, rfl, hf⟩, rfl⟩
    exact ⟨.hit hf, h⟩
  | enqueue task =>
    refine ends_map.2 ((h.enqueue_ends task).mono ?_)
    rintro ⟨_, _⟩ K' ⟨rfl, hm⟩
    exact ⟨.enqueue, hm⟩
  | dequeue timeout =>
    refine ends_map.2 ((h.dequeue_ends hp).mono ?_)
    rintro ⟨_, _⟩ K' ⟨rfl, hm⟩
    exact ⟨.dequeue, hm⟩

end Mirrors

/-- A call and what the two answer to it. -/
structure Exchange where
  op : StoreOp
  inProcess : Except Exc StoreAnswer
  redis : Except Exc StoreAnswer

/-- The same calls are made of the in-process store and queue and of those in Redis, from the empty
ones on. The last exchange comes first. -/
inductive Session (S : Setup Event) (ok : InProcess → Keyspace Text → StoreOp → Prop) :
    List Exchange → InProcess → Keyspace Text → Prop where
  | nil : Session S ok [] .empty fun _ => none
  | cons (h : Session S ok history m K) (hv : op.Valid m) (hok : ok m K op)
      (he : (op.redis S () : Coro (Cmd Text Event) Cmd.Answer _).Eval Keyspace.exec K (r, ()) K') :
      Session S ok (⟨op, (op.inProcess S m).1, r⟩ :: history) (op.inProcess S m).2 K'

/-- The tasks that were put into the queue. -/
def enqueued (history : List Exchange) : List Task := history.reverse.filterMap (·.op.sent)

/-- The tasks that came out of the queue, by the answers of one side. -/
def dequeued (answer : Exchange → Except Exc StoreAnswer) (history : List Exchange) : List Task :=
  history.reverse.filterMap fun x => x.op.taken (answer x)

section
variable {S : Setup Event} {ok : InProcess → Keyspace Text → StoreOp → Prop}
  {history : List Exchange} {m : InProcess} {K : Keyspace Text}

theorem filterMap_reverse_cons (f : Exchange → Option Task) (x : Exchange) (history) :
    (x :: history).reverse.filterMap f = history.reverse.filterMap f ++ (f x).toList := by
  rw [List.reverse_cons, List.filterMap_append, List.filterMap_cons]
  cases f x <;> rfl

/-- The in-process queue loses, repeats and reorders nothing. -/
theorem Session.fifo (h : Session S ok history m K) :
    enqueued history = dequeued Exchange.inProcess history ++ m.q := by
  induction h with
  | nil => rfl
  | cons _ _ _ _ ih =>
    rename_i history m K op r K' _ _ _ _
    have hs := m.q_step S op
    rw [enqueued, dequeued, filterMap_reverse_cons, filterMap_reverse_cons, List.append_assoc, ← hs,
      ← List.append_assoc]
    exact congrArg (· ++ op.sent.toList) ih

theorem Session.mirrors (h : Session S (StoreOp.Plain S) history m K) :
    (∀ x ∈ history, Agree x.op x.inProcess x.redis) ∧ Mirrors m K := by
  induction h with
  | nil => exact ⟨List.forall_mem_nil _, mirrors_empty⟩
  | cons _ hv hp he ih =>
    obtain ⟨ha, hm⟩ := (ih.2.redis_ends hv hp).of_eval he
    exact ⟨List.forall_mem_cons.2 ⟨ha, ih.1⟩, hm⟩

theorem Session.extend (h : Session S (StoreOp.Plain S) history m K) (op : StoreOp)
    (hv : op.Valid m) (hp : op.Plain S m K) : ∃ r, ∃ K' : Keyspace Text,
      Session S (StoreOp.Plain S) (⟨op, (op.inProcess S m).1, r⟩ :: history)
        (op.inProcess S m).2 K' := by
  obtain ⟨⟨r, _⟩, K', he⟩ := (h.mirrors.2.redis_ends hv hp).exists_eval
  exact ⟨r, K', h.cons hv hp he⟩

end

/-- Redis answers each call as the in-process store and queue do, and hands over the tasks in the
order in which they came, with what is left in its list. -/
theorem agreement_law {S : Setup Event} {history : List Exchange} {m : InProcess}
    {K : Keyspace Text} (h : Session S (StoreOp.Plain S) history m K) :
    (∀ x ∈ history, Agree x.op x.inProcess x.redis) ∧
      dequeued Exchange.redis history = dequeued Exchange.inProcess history ∧
      enqueued history = dequeued Exchange.redis history ++ m.q ∧
      K.items queueKey = .ok (m.q.reverse.map modelDumpJson) ∧
      ∀ op : StoreOp, op.Valid m → op.Plain S m K → ∃ r, ∃ K' : Keyspace Text,
        Session S (StoreOp.Plain S) (⟨op, (op.inProcess S m).1, r⟩ :: history)
          (op.inProcess S m).2 K' := by
  obtain ⟨ha, hm⟩ := h.mirrors
  have hd : dequeued Exchange.redis history = dequeued Exchange.inProcess history :=
    List.filterMap_congr fun x hx => (ha x (List.mem_reverse.1 hx)).taken_eq
  refine ⟨ha, hd, ?_, hm.queue, fun op hv hp => h.extend op hv hp⟩
  rw [hd]
  exact h.fifo

theorem agreement_law_demo : ∃ history m, ∃ K : Keyspace (Task ⊕ String),
    Session keyDemo (StoreOp.Plain keyDemo) history m K ∧
      history.map Exchange.op = [.dequeue 1, .enqueue keyTask, .get "u", .save keyTask] ∧
      (∀ x ∈ history, Agree x.op x.inProcess x.redis) ∧
      dequeued Exchange.redis history = [keyTask] ∧ K.items queueKey = .ok [] := by
  have h : Session keyDemo (StoreOp.Plain keyDemo) [] .empty
    (fun _ => none : Keyspace (Task ⊕ String)) := .nil
  obtain ⟨_, _, h⟩ := h.extend (.save keyTask) trivial fun _ => ⟨rfl, fun _ => by decide⟩
  obtain ⟨_, _, h⟩ := h.extend (.get "u") trivial fun hu => (by cases hu)
  obtain ⟨_, _, h⟩ := h.extend (.enqueue keyTask) trivial trivial
  obtain ⟨_, K, h⟩ := h.extend (.dequeue 1) trivial fun ht => absurd ht (by decide)
  obtain ⟨ha, hd, -, hq, -⟩ := agreement_law h
  exact ⟨_, _, K, h, rfl, ha, hd, hq⟩

theorem save_eval : ((StoreOp.save keyTask).redis keyDemo () : Coro (Cmd (Task ⊕ String) String)
    Cmd.Answer _).Eval Keyspace.exec (fun _ => none) (.ok .done, ()) keysAfter := by
  refine .await (r := .ok true) (And.intro rfl rfl) ?_
  refine .await (r := .ok ()) (And.intro rfl rfl) ?_
  exact .await (r := .ok ()) ⟨rfl, rfl⟩ (.ret ..)

/-- The id of a task that no one has saved is not looked up alike. -/
theorem not_agreement_law : ¬∀ history m, ∀ K : Keyspace (Task ⊕ String),
    Session keyDemo (fun _ _ _ => True) history m K →
      ∀ x ∈ history, Agree x.op x.inProcess x.redis := by
  intro h
  have hs : Session keyDemo (fun _ _ _ => True) [] .empty
    (fun _ => none : Keyspace (Task ⊕ String)) := .nil
  have hv : (StoreOp.save keyTask).Valid .empty := trivial
  have hsave := hs.cons hv trivial save_eval
  have hget : ((TaskStore.get ("digest:" ++ keyDigest) : Py (Task ⊕ String) String Unit _)
      ()).Eval Keyspace.exec keysAfter (.error ⟨.value, "Invalid JSON"⟩, ()) keysAfter :=
    get_eval_iff.2 ⟨rfl, rfl⟩
  have hv' : (StoreOp.get ("digest:" ++ keyDigest)).Valid
    ((StoreOp.save keyTask).inProcess keyDemo .empty).2 := trivial
  have hs' := hsave.cons hv' trivial (eval_bind.2 ⟨_, _, _, hget, rfl, rfl⟩)
  cases h _ _ _ hs' _ List.mem_cons_self

end Orchestrator
