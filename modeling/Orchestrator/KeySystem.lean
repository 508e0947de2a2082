import Orchestrator.Naming

namespace Orchestrator
open Concurrency Async
set_option autoImplicit true

/-- The orchestrator over one namespace of keys. Of the Redis in `rest`, only what is published
counts. -/
structure KeyWorld (Text Event : Type) where
  keys : Keyspace Text
  rest : World Text Event

def KeyWorld.init : KeyWorld Text Event := ⟨fun _ => none, .init⟩

/-- The commands that are about keys. -/
def Cmd.onKeys : Cmd Text Event → Bool
  | .get _ | .setNx .. | .set .. | .sadd .. | .smembers _ | .mget _ | .getDigest _ | .setDigest ..
  | .delDigest _ | .lpush _ | .brpop | .scan | .acquireLock .. | .evalRelease .. => true
  | _ => false

section
variable [RawText Text]

def KeyWorld.exec (c : Cmd Text Event) (r : c.Answer) (w w' : KeyWorld Text Event) : Prop :=
  Keyspace.exec c r w.keys w'.keys ∧
    if c.onKeys then w'.rest = w.rest else Orchestrator.exec c r w.rest w'.rest

def KeyWorld.abort (c : Cmd Text Event) (r : c.Answer) (w w' : KeyWorld Text Event) : Prop :=
  ∃ e : Exc, r = .error e ∧
    (c.awaited = true ∧ e.cls = .cancelled ∨ c.onRedis = true ∧ e.cls = .other) ∧
    (w' = { w with rest := c.giveUp w.rest } ∨ ∃ a, KeyWorld.exec c (.ok a) w w')

/-- A lock key can expire, a second of it can elapse, and a heartbeat can refresh it. -/
def keyTick (S : Setup Event) (e : Tick) (w w' : KeyWorld Text Event) : Prop :=
  match e with
  | .expire p => ∃ x ttl, w.keys (lockKey p) = some (.string x (some ttl)) ∧
      w' = { w with keys := w.keys.del (lockKey p) }
  | .elapse p => ∃ x ttl, w.keys (lockKey p) = some (.string x (some (ttl + 1))) ∧
      w' = { w with keys := w.keys.put (lockKey p) (.string x (some ttl)) }
  | .refresh τ held => ∃ hb o, w.rest.heartbeats τ = some hb ∧ hb.inflight = true ∧
      w.keys.get (lockKey hb.projectName) = .ok o ∧
      held = decide (o.map RawText.toString = some τ) ∧
      w' = ⟨if held then w.keys.put (lockKey hb.projectName)
          (.string (ofString τ) (some S.settings.lockTtl)) else w.keys,
        w.rest.setHeartbeat τ { hb with state := hb.answered S held, inflight := false }⟩
  | e => tick S e w.rest w'.rest ∧ w'.keys = w.keys

def keySystem (Text : Type) [TaskJson Text] [RawText Text] (S : Setup Event) :
    Machine (Cmd Text Event) Cmd.Answer (Except Exc Returned) (KeyWorld Text Event) Kind Tick where
  body q := start (q.run S) ()
  exec _ := KeyWorld.exec
  abort _ := KeyWorld.abort
  spawn q w w' := spawn q w.rest w'.rest ∧ w'.keys = w.keys
  exit q b w w' o := exit q b w.rest w'.rest o ∧ w'.keys = w.keys
  env := keyTick S
  halt w w' := halt w.rest w'.rest ∧ w'.keys = w.keys

abbrev KeyFilter (Text Event : Type) : Type :=
  StepFilter (Cmd Text Event) Cmd.Answer (Except Exc Returned) (KeyWorld Text Event) Kind Tick

end

variable [TaskJson Text] [RawText Text]

/-- What a key may hold: every task id in it is of one kind. -/
inductive Held (N : String → Prop) : KeyName → RedisValue Text → Prop where
  | task (ht : N t.taskId) : Held N ⟨.task, t.taskId⟩ (.string (modelDumpJson t) none)
  | projectTasks (h : ∀ id ∈ ids, N id) : Held N ⟨.projectTasks, p⟩ (.set ids)
  | digest {id : String} (hid : N id) : Held N ⟨.digest, d⟩ (.string (ofString id) none)
  | lock : Held N ⟨.lock, p⟩ (.string (ofString τ) (some ttl))
  | queue (h : ∀ x ∈ xs, ∃ t : Task, N t.taskId ∧ x = modelDumpJson t) :
      Held N ⟨.queue, ""⟩ (.list xs)

namespace Keyspace

/-- Each key holds what it is for. -/
def Tidy (N : String → Prop) (K : Keyspace Text) : Prop :=
  ∀ key v, K key = some v → ∃ n : KeyName, n.key = key ∧ Held N n v

section
variable {N : String → Prop} {K : Keyspace Text} {n : KeyName} {v : RedisValue Text}

theorem tidy_empty : Tidy N (fun _ => none : Keyspace Text) := fun _ _ hv => by cases hv

theorem Tidy.put (h : K.Tidy N) (hv : Held N n v) : (K.put n.key v).Tidy N := by
  intro key v' hk
  by_cases he : key = n.key
  · subst he
    rw [Keyspace.put, Function.update_self] at hk
    cases hk
    exact ⟨n, rfl, hv⟩
  · rw [Keyspace.put, Function.update_of_ne he] at hk
    exact h key v' hk

theorem Tidy.del (h : K.Tidy N) (key : String) : (K.del key).Tidy N := by
  intro key' v' hk
  by_cases he : key' = key
  · rw [he, Keyspace.del, Function.update_self] at hk
    cases hk
  · rw [Keyspace.del, Function.update_of_ne he] at hk
    exact h key' v' hk

theorem Tidy.putItems {xs : List Text} (h : K.Tidy N)
    (hxs : ∀ x ∈ xs, ∃ t : Task, N t.taskId ∧ x = modelDumpJson t) :
    (K.putItems queueKey xs).Tidy N := by
  unfold Keyspace.putItems
  split
  · exact h.del queueKey
  · rw [← queueKey_eq]
    exact h.put (.queue hxs)

variable (hN : ∀ id, N id → Regular id)
include hN

/-- A key holds what it is for, if it is not one of a task whose id looks like a digest. -/
theorem Tidy.held (h : K.Tidy N) (hn : n.kind = .task → Regular n.field)
    (hv : K n.key = some v) : Held N n v := by
  obtain ⟨n', he, hh⟩ := h n.key v hv
  rcases KeyName.key_inj he with rfl | ⟨⟨hk, -⟩, hf⟩ | ⟨⟨hk, -⟩, hf⟩
  · exact hh
  · cases hh with
    | task ht => exact absurd hf (hN _ ht _)
    | _ => cases hk
  · exact absurd hf (hn hk _)

theorem Tidy.task (h : K.Tidy N) {id : String} (hid : Regular id)
    (hv : K (taskKey id) = some v) :
    ∃ t : Task, t.taskId = id ∧ N id ∧ v = .string (modelDumpJson t) none := by
  cases h.held (n := ⟨.task, id⟩) hN (fun _ => hid) hv with
  | @task t ht => exact ⟨t, rfl, ht, rfl⟩

theorem Tidy.members (h : K.Tidy N) (p : String) :
    ∃ ids, K.members (projectTasksKey p) = .ok ids ∧ ∀ id ∈ ids, N id := by
  unfold Keyspace.members
  cases hv : K (projectTasksKey p) with
  | none => exact ⟨[], rfl, nofun⟩
  | some v =>
    cases h.held (n := ⟨.projectTasks, p⟩) hN nofun hv with
    | @projectTasks ids _ hids => exact ⟨ids, rfl, hids⟩

theorem Tidy.items (h : K.Tidy N) : ∃ xs, K.items queueKey = .ok xs ∧
    ∀ x ∈ xs, ∃ t : Task, N t.taskId ∧ x = modelDumpJson t := by
  unfold Keyspace.items
  cases hv : K queueKey with
  | none => exact ⟨[], rfl, nofun⟩
  | some v =>
    rw [← queueKey_eq] at hv
    cases h.held (n := ⟨.queue, ""⟩) hN nofun hv with
    | @queue xs hxs => exact ⟨xs, rfl, hxs⟩

theorem Tidy.digest (h : K.Tidy N) {d : String} (hv : K (dedupKey d) = some v) :
    ∃ id, N id ∧ v = .string (ofString id) none := by
  cases h.held (n := ⟨.digest, d⟩) hN nofun hv with
  | digest hid => exact ⟨_, hid, rfl⟩

/-- Commands with ids of one kind keep each key to what it is for, and so do the replies. -/
theorem Tidy.exec {K' : Keyspace Text} {c : Cmd Text Event} {r : c.Answer} (h : K.Tidy N)
    (hc : c.Names N) (hx : Keyspace.exec c r K K') :
    K'.Tidy N ∧ (c.onKeys = true → Replies (Named N) c r) := by
  cases c with
  | get id =>
    obtain ⟨rfl, rfl⟩ := hx
    refine ⟨h, fun _ o ho t ht => ?_⟩
    rw [Keyspace.get] at ho
    cases hv : K' (taskKey id) with
    | none =>
      rw [hv] at ho
      cases ho
      cases ht
    | some v =>
      obtain ⟨u, rfl, hn, rfl⟩ := h.task hN hc hv
      rw [hv] at ho
      cases ho
      rw [Option.bind_some, parse_dump] at ht
      cases ht
      exact hn
  | setNx id x =>
    obtain ⟨hid, t, rfl, rfl⟩ := hc
    simp only [Keyspace.exec] at hx
    split at hx <;> obtain ⟨rfl, rfl⟩ := hx
    · exact ⟨h.put (n := ⟨.task, t.taskId⟩) (.task hid), fun _ _ _ => trivial⟩
    · exact ⟨h, fun _ _ _ => trivial⟩
  | set id x =>
    obtain ⟨hid, t, rfl, rfl⟩ := hc
    obtain ⟨rfl, rfl⟩ := hx
    exact ⟨h.put (n := ⟨.task, t.taskId⟩) (.task hid), fun _ _ _ => trivial⟩
  | sadd p id =>
    obtain ⟨ids, hids, hn⟩ := h.members hN p
    simp only [Keyspace.exec, hids] at hx
    obtain ⟨rfl, rfl⟩ := hx
    refine ⟨h.put (n := ⟨.projectTasks, p⟩) (.projectTasks fun id' hid => ?_), fun _ _ _ => trivial⟩
    rcases List.mem_insert_iff.1 hid with rfl | hid
    · exact hc
    · exact hn id' hid
  | smembers p =>
    obtain ⟨ids, hids, hn⟩ := h.members hN p
    simp only [Keyspace.exec, hids] at hx
    obtain ⟨⟨ids', rfl, hp⟩, rfl⟩ := hx
    refine ⟨h, fun _ a ha id hid => hn id ?_⟩
    cases ha
    exact hp.mem_iff.1 hid
  | mget ids =>
    obtain ⟨rfl, rfl⟩ := hx
    exact ⟨h, fun _ _ _ => trivial⟩
  | getDigest d =>
    obtain ⟨rfl, rfl⟩ := hx
    refine ⟨h, fun _ o ho id hid => ?_⟩
    rw [Keyspace.get] at ho
    cases hv : K' (dedupKey d) with
    | none =>
      rw [hv] at ho
      cases ho
      cases hid
    | some v =>
      obtain ⟨id', hn, rfl⟩ := h.digest hN hv
      rw [hv] at ho
      cases ho
      cases hid
      rw [to_of]
      exact hn
  | setDigest d id =>
    obtain ⟨rfl, rfl⟩ := hx
    exact ⟨h.put (n := ⟨.digest, d⟩) (.digest hc), fun _ _ _ => trivial⟩
  | delDigest d =>
    obtain ⟨rfl, rfl⟩ := hx
    exact ⟨h.del _, fun _ _ _ => trivial⟩
  | lpush x =>
    obtain ⟨xs, hxs, ht⟩ := h.items hN
    simp only [Keyspace.exec, hxs] at hx
    obtain ⟨rfl, rfl⟩ := hx
    refine ⟨h.putItems fun y hy => ?_, fun _ _ _ => trivial⟩
    rcases List.mem_cons.1 hy with rfl | hy
    · exact hc
    · exact ht y hy
  | brpop =>
    obtain ⟨xs, hxs, ht⟩ := h.items hN
    simp only [Keyspace.exec, hxs] at hx
    obtain ⟨rfl, rfl⟩ := hx
    refine ⟨h.putItems fun y hy => ht y (List.dropLast_subset _ hy), fun _ o ho t htask => ?_⟩
    cases ho
    obtain ⟨x, hx, hp⟩ := Option.bind_eq_some_iff.1 htask
    obtain ⟨u, hu, rfl⟩ := ht x (List.mem_of_getLast? hx)
    rw [parse_dump] at hp
    cases hp
    exact hu
  | scan =>
    obtain ⟨⟨pages, rfl, hp⟩, rfl⟩ := hx
    refine ⟨h, fun _ a ha => ?_⟩
    cases ha
    exact hp.regular
  | acquireLock p τ ttl =>
    simp only [Keyspace.exec] at hx
    split at hx <;> obtain ⟨⟨rfl, -⟩, rfl⟩ := hx
    · exact ⟨h.put (n := ⟨.lock, p⟩) .lock, fun _ _ _ => trivial⟩
    · exact ⟨h, fun _ _ _ => trivial⟩
  | evalRelease p τ =>
    simp only [Keyspace.exec] at hx
    split at hx <;> obtain ⟨rfl, rfl⟩ := hx
    · refine ⟨?_, fun _ _ _ => trivial⟩
      split
      · exact h.del _
      · exact h
    · exact ⟨h, fun _ _ _ => trivial⟩
  | _ =>
    cases hx
    exact ⟨h, fun hk => by cases hk⟩

end

end Keyspace

section
variable {N : String → Prop} (hN : ∀ id, N id → Regular id) {S : Setup Event}
include hN

/-- The ids that are drawn are of one kind. -/
def draws (N : String → Prop) : KeyFilter Text Event := fun _ _ l _ =>
  match l with
  | .cmd _ .uuid4 (.ok u) => N u
  | _ => True

theorem tidy_contract :
    Contract (keySystem Text S) (draws N) (fun w => w.keys.Tidy N) (Replies (Named N))
      (Cmd.Names N) where
  body q := (naming_run hN q).start trivial
  answer := by
    intro tr w i c r w' l h hc ha hok
    cases ha with
    | cmd hx =>
      obtain ⟨ht, hr⟩ := h.exec hN hc hx.1
      refine ⟨ht, ?_⟩
      cases c with
      | uuid4 =>
        rintro u rfl
        exact hok
      | get _ | brpop | smembers _ | getDigest _ | scan => exact hr rfl
      | _ => exact fun _ _ => trivial
    | abort hx =>
      obtain ⟨e, rfl, -, rfl | ⟨a, hx⟩⟩ := hx
      · exact ⟨h, nofun⟩
      · exact ⟨(h.exec hN hc hx.1).1, nofun⟩
  spawn := by
    rintro w q w' h ⟨-, hk⟩
    rw [hk]
    exact h
  exit := by
    rintro w q b w' o h ⟨-, hk⟩
    rw [hk]
    exact h
  env := by
    intro w e w' h he
    cases e with
    | expire p =>
      obtain ⟨x, ttl, -, rfl⟩ := he
      exact h.del _
    | elapse p =>
      obtain ⟨x, ttl, hv, rfl⟩ := he
      cases h.held (n := ⟨.lock, p⟩) hN nofun hv with
      | lock => exact h.put (n := ⟨.lock, p⟩) .lock
    | refresh τ held =>
      obtain ⟨hb, o, -, -, -, -, rfl⟩ := he
      dsimp only
      split
      · exact h.put (n := ⟨.lock, hb.projectName⟩) .lock
      · exact h
    | _ =>
      rw [he.2]
      exact h
  halt := by
    rintro w w' h ⟨-, hk⟩
    rw [hk]
    exact h

theorem tidy_of_run {tr : List (SysLabel Text Event)}
    {s : Config (Cmd Text Event) Cmd.Answer (Except Exc Returned) (KeyWorld Text Event) Kind}
    (hr : Run (keySystem Text S) (draws N) (.idle .init) tr s) : s.world.keys.Tidy N :=
  ((tidy_contract hN).kept Keyspace.tidy_empty hr).inv

end

end Orchestrator
