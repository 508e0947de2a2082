import Orchestrator.Drawn
import Orchestrator.Lookup
import Orchestrator.Concurrency.Simulation

namespace Orchestrator
open Concurrency Async
set_option autoImplicit true

/-! The families of keys that the store is modelled by are what the one namespace holds, as long
as no task id looks like a digest. -/

/-- A name whose key is no other name's. -/
def KeyName.Proper (n : KeyName) : Prop := n.kind = .task → Regular n.field

theorem KeyName.Proper.key_inj {n n' : KeyName} (hn : n.Proper) (hn' : n'.Proper)
    (h : n.key = n'.key) : n = n' := by
  rcases KeyName.key_inj h with h | ⟨⟨hk, -⟩, hf⟩ | ⟨⟨hk, -⟩, hf⟩
  · exact h
  · exact absurd hf (hn hk _)
  · exact absurd hf (hn' hk _)

theorem KeyName.proper {n : KeyName} (h : n.kind ≠ .task) : n.Proper := fun hk => absurd hk h

/-- The world with families of keys instead of the one namespace. -/
def KeyWorld.withFamilies (w : KeyWorld Text Event) (r : Redis Text) : World Text Event :=
  w.rest.onRedis fun _ => r

theorem cancelFuture_onRedis (w : World Text Event) (n : Nat) (f : Redis Text → Redis Text) :
    (w.onRedis f).cancelFuture n = (w.cancelFuture n).onRedis f := by
  have ht : (w.onRedis f).threads = w.threads := rfl
  unfold World.cancelFuture
  rw [ht]
  cases w.threads[n]? with
  | none => rfl
  | some th =>
    obtain ⟨_, _, _, _, state⟩ := th
    cases state <;> rfl

theorem giveUp_onRedis (c : Cmd Text Event) (w : World Text Event) (f : Redis Text → Redis Text) :
    c.giveUp (w.onRedis f) = (c.giveUp w).onRedis f := by
  cases c with
  | awaitFuture n timeout => exact cancelFuture_onRedis w n f
  | _ => rfl

theorem cancelHeartbeat_onRedis (w : World Text Event) (τ : String) (f : Redis Text → Redis Text) :
    (w.onRedis f).cancelHeartbeat τ = (w.cancelHeartbeat τ).onRedis f := by
  have hh : (w.onRedis f).heartbeats = w.heartbeats := rfl
  unfold World.cancelHeartbeat
  rw [hh]
  cases w.heartbeats τ with
  | none => rfl
  | some hb =>
    obtain ⟨_, state, _⟩ := hb
    cases state <;> rfl

theorem succeeds_of_exec {c : Cmd Text Event} {r : c.Answer} {w w' : World Text Event}
    (hc : c.onKeys = true) (hx : exec c r w w') : ∃ a, r = .ok a := by
  cases r with
  | ok a => exact ⟨a, rfl⟩
  | error e =>
    have hf := exec_error hx
    cases c with
    | awaitHeartbeat _ | factoryGet _ _ | projectExists _ | setProjectName _ | checkpointExists _
    | iterEvents _ _ _ | awaitFuture _ _ => cases hc
    | _ => exact absurd hf not_false

variable [RawText Text]

/-- What the families hold under a name. There is no key for a set or a list without members. -/
def Redis.value (r : Redis Text) (n : KeyName) : Option (RedisValue Text) :=
  match n.kind with
  | .task => (r.tasks.lookup n.field).map (.string · none)
  | .projectTasks =>
    if (r.projectTasks n.field).isEmpty then none else some (.set (r.projectTasks n.field))
  | .digest => (r.digests n.field).map fun id => .string (ofString id) none
  | .lock => (r.locks n.field).map fun l => .string (ofString l.token) (some l.ttl)
  | .queue => if n.field ≠ "" ∨ r.queue.isEmpty then none else some (.list r.queue)

section
variable {r : Redis Text} {id p d : String}

/-- A change under one name. -/
theorem Redis.value_update {r' : Redis Text} {n : KeyName} (hself : r'.value n = o)
    (hrest : ∀ k x, (⟨k, x⟩ : KeyName) ≠ n → r'.value ⟨k, x⟩ = r.value ⟨k, x⟩) :
    r'.value = Function.update r.value n o := by
  funext n'
  by_cases he : n' = n
  · rw [he, Function.update_self, hself]
  · rw [Function.update_of_ne he]
    exact hrest n'.kind n'.field he

theorem Redis.value_set (x : Text) :
    (r.set id x).value = Function.update r.value ⟨.task, id⟩ (some (.string x none)) := by
  apply value_update
  · simp only [value, set, AList.lookup_insert, Option.map_some]
  · intro k y hne
    cases k with
    | task =>
      have hy : y ≠ id := fun he => hne (by rw [he])
      simp only [value, set, AList.lookup_insert_ne hy]
    | _ => rfl

theorem Redis.value_sadd : (r.sadd p id).value =
    Function.update r.value ⟨.projectTasks, p⟩ (some (.set ((r.projectTasks p).insert id))) := by
  have hne : ((r.projectTasks p).insert id).isEmpty = false :=
    List.isEmpty_eq_false_iff_exists_mem.2 ⟨id, List.mem_insert_self⟩
  apply value_update
  · simp only [value, sadd, Function.update_self, hne, Bool.false_eq_true, ↓reduceIte]
  · intro k y hne
    cases k with
    | projectTasks =>
      have hy : y ≠ p := fun he => hne (by rw [he])
      simp only [value, sadd, Function.update_of_ne hy]
    | _ => rfl

theorem Redis.value_setDigest (o : Option String) : (r.setDigest d o).value =
    Function.update r.value ⟨.digest, d⟩ (o.map fun id => .string (ofString id) none) := by
  apply value_update
  · simp only [value, setDigest, Function.update_self]
  · intro k y hne
    cases k with
    | digest =>
      have hy : y ≠ d := fun he => hne (by rw [he])
      simp only [value, setDigest, Function.update_of_ne hy]
    | _ => rfl

theorem Redis.value_setLock (o : Option Lock) : (r.setLock p o).value =
    Function.update r.value ⟨.lock, p⟩
      (o.map fun l => .string (ofString l.token) (some l.ttl)) := by
  apply value_update
  · simp only [value, setLock, Function.update_self]
  · intro k y hne
    cases k with
    | lock =>
      have hy : y ≠ p := fun he => hne (by rw [he])
      simp only [value, setLock, Function.update_of_ne hy]
    | _ => rfl

theorem Redis.value_queue (xs : List Text) : ({ r with queue := xs } : Redis Text).value =
    Function.update r.value ⟨.queue, ""⟩ (if xs.isEmpty then none else some (.list xs)) := by
  apply value_update
  · simp only [value, ne_eq, not_true_eq_false, false_or]
  · intro k y hne
    cases k with
    | queue =>
      have hy : y ≠ "" := fun he => hne (by rw [he])
      simp only [value, ne_eq, hy, not_false_eq_true, true_or, ↓reduceIte]
    | _ => rfl

end

/-- The families hold what the keys do, and no task id looks like a digest. -/
structure Keyspace.Shows (K : Keyspace Text) (r : Redis Text) : Prop where
  value : ∀ n : KeyName, n.Proper → K n.key = r.value n
  regular : ∀ id ∈ r.tasks, Regular id

namespace Keyspace.Shows
variable {K : Keyspace Text} {r r' : Redis Text} {id p d : String}

theorem empty : Shows (fun _ => none : Keyspace Text) .empty where
  value n _ := by
    obtain ⟨k, x⟩ := n
    cases k with
    | queue => exact (if_pos (.inr rfl)).symm
    | _ => rfl
  regular id h := by cases h

/-- Under one name, both are changed alike. -/
theorem update {n : KeyName} (h : K.Shows r) (hn : n.Proper)
    (hv : r'.value = Function.update r.value n o) (hr : ∀ id ∈ r'.tasks, Regular id) :
    Shows (Function.update K n.key o) r' where
  value n' hn' := by
    rw [hv]
    by_cases he : n' = n
    · rw [he, Function.update_self, Function.update_self]
    · have hk : n'.key ≠ n.key := fun hk => he (hn'.key_inj hn hk)
      rw [Function.update_of_ne he, Function.update_of_ne hk]
      exact h.value n' hn'
  regular := hr

theorem task (h : K.Shows r) (hid : Regular id) :
    K (taskKey id) = (r.tasks.lookup id).map (.string · none) := h.value ⟨.task, id⟩ fun _ => hid

theorem get (h : K.Shows r) (hid : Regular id) :
    K.get (taskKey id) = .ok (r.tasks.lookup id) := by
  unfold Keyspace.get
  rw [h.task hid]
  cases r.tasks.lookup id <;> rfl

theorem eq_none (h : K.Shows r) (hid : Regular id) : K (taskKey id) = none ↔ id ∉ r.tasks := by
  rw [h.task hid, Option.map_eq_none_iff, AList.lookup_eq_none]

theorem mget (h : K.Shows r) {ids : List String} (hids : ∀ id ∈ ids, Regular id) :
    ids.mapM (fun id => K.get (taskKey id)) = .ok (ids.map r.tasks.lookup) := by
  induction ids with
  | nil => rfl
  | cons id ids ih =>
    rw [List.mapM_cons, h.get (hids id List.mem_cons_self),
      ih fun id' hid' => hids id' (List.mem_cons_of_mem _ hid')]
    rfl

theorem members (h : K.Shows r) (p : String) :
    K.members (projectTasksKey p) = .ok (r.projectTasks p) := by
  have hv : K (projectTasksKey p) = r.value ⟨.projectTasks, p⟩ :=
    h.value ⟨.projectTasks, p⟩ (KeyName.proper nofun)
  unfold Keyspace.members
  rw [hv, Redis.value]
  dsimp only
  cases r.projectTasks p <;> rfl

theorem digest (h : K.Shows r) (d : String) :
    (K.get (dedupKey d)).map (Option.map RawText.toString) = .ok (r.digests d) := by
  have hv : K (dedupKey d) = r.value ⟨.digest, d⟩ := h.value ⟨.digest, d⟩ (KeyName.proper nofun)
  unfold Keyspace.get
  rw [hv, Redis.value]
  dsimp only
  cases r.digests d with
  | none => rfl
  | some id => exact congrArg (fun s => Except.ok (some s)) (to_of id)

theorem lock (h : K.Shows r) (p : String) :
    K (lockKey p) = (r.locks p).map fun l => .string (ofString l.token) (some l.ttl) :=
  h.value ⟨.lock, p⟩ (KeyName.proper nofun)

theorem getLock (h : K.Shows r) (p : String) :
    K.get (lockKey p) = .ok ((r.locks p).map fun l => ofString l.token) := by
  unfold Keyspace.get
  rw [h.lock p]
  cases r.locks p <;> rfl

theorem set (h : K.Shows r) (hid : Regular id) (x : Text) :
    (K.put (taskKey id) (.string x none)).Shows (r.set id x) := by
  apply h.update (n := ⟨.task, id⟩) (fun _ => hid) (Redis.value_set x)
  intro id' hid'
  rcases (AList.mem_insert r.tasks).1 hid' with rfl | hid'
  · exact hid
  · exact h.regular id' hid'

theorem sadd (h : K.Shows r) (p id : String) :
    (K.put (projectTasksKey p) (.set ((r.projectTasks p).insert id))).Shows (r.sadd p id) :=
  h.update (n := ⟨.projectTasks, p⟩) (KeyName.proper nofun) Redis.value_sadd h.regular

theorem setDigest (h : K.Shows r) (d : String) (o : Option String) :
    Shows (Function.update K (dedupKey d) (o.map fun id => .string (ofString id) none))
      (r.setDigest d o) :=
  h.update (n := ⟨.digest, d⟩) (KeyName.proper nofun) (Redis.value_setDigest o) h.regular

theorem setLock (h : K.Shows r) (p : String) (o : Option Lock) :
    Shows (Function.update K (lockKey p)
      (o.map fun l => .string (ofString l.token) (some l.ttl))) (r.setLock p o) :=
  h.update (n := ⟨.lock, p⟩) (KeyName.proper nofun) (Redis.value_setLock o) h.regular

/-- Does the lock key carry this token? -/
theorem holds_iff {p τ : String} :
    ((r.locks p).map fun l => (ofString l.token : Text)).map RawText.toString = some τ ↔
      r.holds p τ = true := by
  unfold Redis.holds
  cases r.locks p with
  | none => simp only [Option.map_none, Option.any_none, reduceCtorEq, Bool.false_eq_true]
  | some l =>
    simp only [Option.map_some, to_of, Option.some.injEq, Option.any_some, decide_eq_true_eq]

theorem items (h : K.Shows r) : K.items queueKey = .ok r.queue := by
  have hv : K queueKey = if r.queue.isEmpty then none else some (.list r.queue) := by
    rw [← queueKey_eq, h.value ⟨.queue, ""⟩ (KeyName.proper nofun), Redis.value]
    simp only [ne_eq, not_true_eq_false, false_or]
  unfold Keyspace.items
  rw [hv]
  cases r.queue <;> rfl

theorem queue (h : K.Shows r) (xs : List Text) :
    (K.putItems queueKey xs).Shows { r with queue := xs } := by
  have hu := h.update (n := ⟨.queue, ""⟩) (KeyName.proper nofun) (Redis.value_queue xs) h.regular
  rw [queueKey_eq] at hu
  unfold Keyspace.putItems
  cases xs with
  | nil => exact hu
  | cons x xs => exact hu

end Keyspace.Shows

section
variable [TaskJson Text] {N : String → Prop} (hN : ∀ id, N id → Regular id)
include hN

/-- A command that is about keys is carried out on the families as it is on the keys. -/
theorem Keyspace.Shows.exec {K K' : Keyspace Text} {r : Redis Text} {c : Cmd Text Event}
    {a : c.Answer} (h : K.Shows r) (hc : c.Names N) (hk : c.onKeys = true)
    (hx : Keyspace.exec c a K K') (v : World Text Event) :
    ∃ r', Orchestrator.exec c a (v.onRedis fun _ => r) (v.onRedis fun _ => r') ∧
      r'.published = r.published ∧ K'.Shows r' := by
  cases c with
  | get id =>
    obtain ⟨rfl, rfl⟩ := hx
    exact ⟨r, ⟨h.get hc, rfl⟩, rfl, h⟩
  | setNx id x =>
    simp only [Keyspace.exec, h.eq_none (hN id hc.1)] at hx
    by_cases hid : id ∈ r.tasks
    · rw [if_neg (not_not.2 hid)] at hx
      obtain ⟨rfl, rfl⟩ := hx
      refine ⟨r, ?_, rfl, h⟩
      show ite (id ∈ r.tasks) _ _
      rw [if_pos hid]
      exact ⟨rfl, rfl⟩
    · rw [if_pos hid] at hx
      obtain ⟨rfl, rfl⟩ := hx
      refine ⟨r.set id x, ?_, rfl, h.set (hN id hc.1) x⟩
      show ite (id ∈ r.tasks) _ _
      rw [if_neg hid]
      exact ⟨rfl, rfl⟩
  | set id x =>
    obtain ⟨rfl, rfl⟩ := hx
    exact ⟨r.set id x, ⟨rfl, rfl⟩, rfl, h.set (hN id hc.1) x⟩
  | sadd p id =>
    simp only [Keyspace.exec, h.members p] at hx
    obtain ⟨rfl, rfl⟩ := hx
    exact ⟨r.sadd p id, ⟨rfl, rfl⟩, rfl, h.sadd p id⟩
  | smembers p =>
    simp only [Keyspace.exec, h.members p] at hx
    obtain ⟨ha, rfl⟩ := hx
    exact ⟨r, ⟨ha, rfl⟩, rfl, h⟩
  | mget ids =>
    obtain ⟨rfl, rfl⟩ := hx
    exact ⟨r, ⟨h.mget hc, rfl⟩, rfl, h⟩
  | getDigest d =>
    obtain ⟨rfl, rfl⟩ := hx
    exact ⟨r, ⟨h.digest d, rfl⟩, rfl, h⟩
  | setDigest d id =>
    obtain ⟨rfl, rfl⟩ := hx
    exact ⟨r.setDigest d (some id), ⟨rfl, rfl⟩, rfl, h.setDigest d (some id)⟩
  | delDigest d =>
    obtain ⟨rfl, rfl⟩ := hx
    exact ⟨r.setDigest d none, ⟨rfl, rfl⟩, rfl, h.setDigest d none⟩
  | lpush x =>
    simp only [Keyspace.exec, h.items] at hx
    obtain ⟨rfl, rfl⟩ := hx
    exact ⟨r.lpush x, ⟨rfl, rfl⟩, rfl, h.queue _⟩
  | brpop =>
    simp only [Keyspace.exec, h.items] at hx
    obtain ⟨rfl, rfl⟩ := hx
    refine ⟨{ r with queue := r.queue.dropLast }, ?_, rfl, h.queue _⟩
    cases hq : r.queue.getLast? with
    | some x => simp only [Orchestrator.exec, World.onRedis, hq, and_self]
    | none =>
      have hnil : r.queue = [] := List.getLast?_eq_none_iff.1 hq
      have hdrop : r.queue.dropLast = r.queue := by rw [hnil, List.dropLast_nil]
      simp only [Orchestrator.exec, World.onRedis, hq, hdrop, and_self]
  | scan =>
    obtain ⟨⟨pages, rfl, hp⟩, rfl⟩ := hx
    refine ⟨r, ⟨⟨pages, rfl, hp.ends, fun id hid => ?_⟩, rfl⟩, rfl, h⟩
    have hid' : id ∈ r.tasks := hid
    apply hp.covers id (h.regular id hid')
    rw [ne_eq, h.eq_none (h.regular id hid'), not_not]
    exact hid'
  | acquireLock p τ ttl =>
    simp only [Keyspace.exec, h.lock, Option.map_eq_none_iff] at hx
    cases hl : r.locks p with
    | some l =>
      rw [hl, if_neg (Option.some_ne_none l)] at hx
      obtain ⟨⟨rfl, httl⟩, rfl⟩ := hx
      refine ⟨r, ?_, rfl, h⟩
      simp only [Orchestrator.exec, World.onRedis, hl, httl, and_self]
    | none =>
      rw [if_pos hl] at hx
      obtain ⟨⟨rfl, httl⟩, rfl⟩ := hx
      refine ⟨r.setLock p (some ⟨τ, ttl⟩), ?_, rfl, h.setLock p (some ⟨τ, ttl⟩)⟩
      simp only [Orchestrator.exec, World.onRedis, hl, httl, and_self]
  | evalRelease p τ =>
    simp only [Keyspace.exec, h.getLock] at hx
    obtain ⟨rfl, rfl⟩ := hx
    refine ⟨r.evalRelease p τ, ⟨rfl, rfl⟩, ?_, ?_⟩
    · unfold Redis.evalRelease
      split <;> rfl
    · unfold Redis.evalRelease
      by_cases hh : r.holds p τ = true
      · rw [if_pos hh, if_pos (holds_iff.2 hh)]
        exact h.setLock p none
      · rw [if_neg hh, if_neg (mt holds_iff.1 hh)]
        exact h
  | _ => cases hk

end

/-- A command that is not about keys is carried out over any families. -/
theorem exec_over {c : Cmd Text Event} {a : c.Answer} {w w' : World Text Event} {r : Redis Text}
    (hk : c.onKeys = false) (hx : exec c a w w') (hp : r.published = w.redis.published) :
    ∃ r', exec c a (w.onRedis fun _ => r) (w'.onRedis fun _ => r') ∧
      r'.published = w'.redis.published ∧ ∀ K : Keyspace Text, K.Shows r → K.Shows r' := by
  cases c with
  | publish ch data =>
    obtain ⟨rfl, rfl⟩ := hx
    refine ⟨r.publish ch data, ⟨rfl, rfl⟩, ?_, fun K h => ⟨h.value, h.regular⟩⟩
    exact congrArg (· ++ [(ch, data)]) hp
  | get _ | setNx _ _ | set _ _ | sadd _ _ | smembers _ | mget _ | getDigest _ | setDigest _ _
  | delDigest _ | lpush _ | brpop | scan | acquireLock _ _ _ | evalRelease _ _ => cases hk
  | uuid4 =>
    obtain ⟨u, hu, rfl, rfl⟩ := hx
    exact ⟨r, ⟨u, hu, rfl, rfl⟩, hp, fun _ h => h⟩
  | cancelHeartbeat τ =>
    obtain ⟨rfl, rfl⟩ := hx
    refine ⟨r, ⟨rfl, (cancelHeartbeat_onRedis w τ _).symm⟩, ?_, fun _ h => h⟩
    rw [hp, (untouched_cancelHeartbeat w τ).redis]
  | awaitFuture n timeout =>
    obtain ⟨th, o, hth, hs, rfl, rfl⟩ | ⟨ht, hm, rfl⟩ := hx
    · exact ⟨r, .inl ⟨th, o, hth, hs, rfl, rfl⟩, hp, fun _ h => h⟩
    · refine ⟨r, .inr ⟨ht, hm, (cancelFuture_onRedis w n _).symm⟩, ?_, fun _ h => h⟩
      rw [hp, (untouched_cancelFuture w n).redis]
  | _ =>
    obtain ⟨ha, rfl⟩ := hx
    exact ⟨r, ⟨ha, rfl⟩, hp, fun _ h => h⟩

theorem exec_keys {c : Cmd Text Event} {a : c.Answer} {K K' : Keyspace Text}
    (hk : c.onKeys = false) (hx : Keyspace.exec c a K K') : K' = K := by
  cases c with
  | get _ | setNx _ _ | set _ _ | sadd _ _ | smembers _ | mget _ | getDigest _ | setDigest _ _
  | delDigest _ | lpush _ | brpop | scan | acquireLock _ _ _ | evalRelease _ _ => cases hk
  | _ => exact hx

/-- A world whose Redis holds what the keys do, with the rest as it is. -/
def KeyWorld.Shows (w : KeyWorld Text Event) (v : World Text Event) : Prop :=
  ∃ r, v = w.withFamilies r ∧ r.published = w.rest.redis.published ∧ w.keys.Shows r

theorem KeyWorld.shows_init : KeyWorld.Shows (.init : KeyWorld Text Event) .init :=
  ⟨.empty, rfl, rfl, .empty⟩

/-- What happens beside the keys and Redis is seen over the families. -/
theorem KeyWorld.Shows.beside {w w' : KeyWorld Text Event} {v : World Text Event} (h : w.Shows v)
    (hk : w'.keys = w.keys) (hr : w'.rest.redis = w.rest.redis) :
    w'.Shows (w'.withFamilies v.redis) := by
  obtain ⟨r, rfl, hp, hs⟩ := h
  refine ⟨r, rfl, ?_, ?_⟩
  · rw [hr]
    exact hp
  · rw [hk]
    exact hs

section
variable [TaskJson Text] {N : String → Prop} (hN : ∀ id, N id → Regular id)
include hN

theorem KeyWorld.Shows.exec {c : Cmd Text Event} {a : c.Answer} {w w' : KeyWorld Text Event}
    {v : World Text Event} (h : w.Shows v) (hc : c.Names N) (hx : KeyWorld.exec c a w w') :
    ∃ v', Orchestrator.exec c a v v' ∧ w'.Shows v' := by
  obtain ⟨r, rfl, hp, hs⟩ := h
  obtain ⟨hx, hrest⟩ := hx
  cases hk : c.onKeys with
  | true =>
    rw [if_pos hk] at hrest
    obtain ⟨r', hx', hp', hs'⟩ := hs.exec hN hc hk hx w.rest
    refine ⟨w'.withFamilies r', ?_, r', rfl, ?_, hs'⟩
    · rw [withFamilies, withFamilies, hrest]
      exact hx'
    · rw [hp', hrest]
      exact hp
  | false =>
    rw [if_neg (by rw [hk]; exact Bool.false_ne_true)] at hrest
    obtain ⟨r', hx', hp', hs'⟩ := exec_over hk hrest hp
    refine ⟨w'.withFamilies r', hx', r', rfl, hp', ?_⟩
    rw [exec_keys hk hx]
    exact hs' w.keys hs

theorem KeyWorld.Shows.abort {c : Cmd Text Event} {a : c.Answer} {w w' : KeyWorld Text Event}
    {v : World Text Event} (h : w.Shows v) (hc : c.Names N) (hx : KeyWorld.abort c a w w') :
    ∃ v', Orchestrator.abort c a v v' ∧ w'.Shows v' := by
  obtain ⟨e, rfl, he, rfl | ⟨b, hx⟩⟩ := hx
  · refine ⟨_, ⟨e, rfl, he, .inl rfl⟩, ?_⟩
    have hb : (⟨w.keys, c.giveUp w.rest⟩ : KeyWorld Text Event).Shows _ :=
      h.beside rfl (untouched_giveUp c w.rest).redis
    obtain ⟨r, rfl, -, -⟩ := h
    rw [withFamilies, giveUp_onRedis]
    exact hb
  · obtain ⟨v', hx', hs'⟩ := h.exec hN hc hx
    exact ⟨v', ⟨e, rfl, he, .inr ⟨b, hx'⟩⟩, hs'⟩

end

/-- What happens to the locks. -/
def Tick.onLocks : Tick → Bool
  | .expire _ | .elapse _ | .refresh .. => true
  | _ => false

section
variable {S : Setup Event} {w w' : KeyWorld Text Event} {v : World Text Event}

/-- What happens beside the locks happens over any families. -/
theorem tick_over {e : Tick} {w w' : World Text Event} {r : Redis Text} (ht : tick S e w w')
    (he : e.onLocks = false) (hp : r.published = w.redis.published) :
    ∃ r', tick S e (w.onRedis fun _ => r) (w'.onRedis fun _ => r') ∧
      r'.published = w'.redis.published ∧ ∀ K : Keyspace Text, K.Shows r → K.Shows r' := by
  cases e with
  | expire p | elapse p | refresh τ held => cases he
  | beat τ =>
    obtain ⟨hb, hhb, hst, rfl⟩ := ht
    exact ⟨r, ⟨hb, hhb, hst, rfl⟩, hp, fun _ h => h⟩
  | beatFails τ e =>
    obtain ⟨hb, hhb, hst, hx, rfl⟩ := ht
    exact ⟨r, ⟨hb, hhb, hst, hx, rfl⟩, hp, fun _ h => h⟩
  | threadStart n =>
    obtain ⟨th, hth, hst, rfl⟩ := ht
    exact ⟨r, ⟨th, hth, hst, rfl⟩, hp, fun _ h => h⟩
  | threadPublish n =>
    obtain ⟨th, ev, rest, data, hth, hst, hrem, hd, rfl⟩ := ht
    refine ⟨r.publish (channel th.taskId) data, ⟨th, ev, rest, data, hth, hst, hrem, hd, rfl⟩, ?_,
      fun K h => ⟨h.value, h.regular⟩⟩
    exact congrArg (· ++ [(channel th.taskId, data)]) hp
  | threadFails n e =>
    obtain ⟨th, ev, rest, hth, hst, hrem, rfl⟩ := ht
    exact ⟨r, ⟨th, ev, rest, hth, hst, hrem, rfl⟩, hp, fun _ h => h⟩
  | threadEnd n =>
    obtain ⟨th, hth, hst, hrem, rfl⟩ := ht
    exact ⟨r, ⟨th, hth, hst, hrem, rfl⟩, hp, fun _ h => h⟩
  | stop =>
    obtain rfl := ht
    exact ⟨r, rfl, hp, fun _ h => h⟩

theorem KeyWorld.Shows.tick {e : Tick} (h : w.Shows v) (ht : keyTick S e w w') :
    ∃ v', Orchestrator.tick S e v v' ∧ w'.Shows v' := by
  obtain ⟨r, rfl, hp, hs⟩ := h
  have hlock {p : String} {x : Text} {ttl : Nat}
      (hv : w.keys (lockKey p) = some (.string x (some ttl))) :
      ∃ l, r.locks p = some l ∧ ofString l.token = x ∧ l.ttl = ttl := by
    rw [hs.lock p] at hv
    obtain ⟨l, hl, he⟩ := Option.map_eq_some_iff.1 hv
    cases he
    exact ⟨l, hl, rfl, rfl⟩
  have hrest (ht : Orchestrator.tick S e w.rest w'.rest ∧ w'.keys = w.keys)
      (he : e.onLocks = false) :
      ∃ v', Orchestrator.tick S e (w.withFamilies r) v' ∧ w'.Shows v' := by
    obtain ⟨r', ht', hp', hs'⟩ := tick_over ht.1 he hp
    refine ⟨w'.withFamilies r', ht', r', rfl, hp', ?_⟩
    rw [ht.2]
    exact hs' w.keys hs
  cases e with
  | expire p =>
    obtain ⟨x, ttl, hv, rfl⟩ := ht
    obtain ⟨l, hl, rfl, rfl⟩ := hlock hv
    refine ⟨w.withFamilies (r.setLock p none), ⟨?_, rfl⟩, _, rfl, hp, hs.setLock p none⟩
    show r.locks p ≠ none
    rw [hl]
    exact Option.some_ne_none l
  | elapse p =>
    obtain ⟨x, ttl, hv, rfl⟩ := ht
    obtain ⟨l, hl, rfl, httl⟩ := hlock hv
    refine ⟨w.withFamilies (r.setLock p (some { l with ttl := l.ttl - 1 })),
      ⟨l, hl, by omega, rfl⟩, _, rfl, hp, ?_⟩
    have hd : l.ttl - 1 = ttl := by omega
    rw [hd]
    exact hs.setLock p (some { l with ttl := ttl })
  | refresh τ held =>
    obtain ⟨hb, o, hhb, hin, ho, hheld, rfl⟩ := ht
    rw [hs.getLock] at ho
    cases ho
    have hh : held = r.holds hb.projectName τ := by
      rw [hheld, decide_eq_decide.2 Keyspace.Shows.holds_iff, Bool.decide_coe]
    refine ⟨_, ⟨hb, hhb, hin, hh, rfl⟩, r.evalRefresh hb.projectName τ S.settings.lockTtl, rfl,
      ?_, ?_⟩
    · unfold Redis.evalRefresh
      split <;> exact hp
    · unfold Redis.evalRefresh
      rw [← hh]
      cases held with
      | true => exact hs.setLock hb.projectName (some ⟨τ, S.settings.lockTtl⟩)
      | false => exact hs
  | _ => exact hrest ht rfl

theorem KeyWorld.Shows.spawn {q : Kind} (h : w.Shows v)
    (hs : Orchestrator.spawn q w.rest w'.rest ∧ w'.keys = w.keys) :
    ∃ v', Orchestrator.spawn q v v' ∧ w'.Shows v' := by
  obtain ⟨hs, hk⟩ := hs
  have hb : w'.Shows (w'.withFamilies v.redis) := h.beside hk (redis_spawn hs)
  refine ⟨_, ?_, hb⟩
  obtain ⟨r, rfl, -, -⟩ := h
  rw [withFamilies, withFamilies]
  cases q with
  | recover =>
    obtain ⟨hst, he⟩ := hs
    rw [he]
    exact ⟨hst, rfl⟩
  | worker | request _ =>
    obtain ⟨hst, he⟩ := hs
    rw [he]
    exact ⟨hst, rfl⟩

theorem KeyWorld.Shows.exit {q : Kind} {b : Except Exc Returned} {o : Option Kind} (h : w.Shows v)
    (he : Orchestrator.exit q b w.rest w'.rest o ∧ w'.keys = w.keys) :
    ∃ v', Orchestrator.exit q b v v' o ∧ w'.Shows v' := by
  obtain ⟨he, hk⟩ := he
  have hb : w'.Shows (w'.withFamilies v.redis) := h.beside hk (redis_exit he)
  refine ⟨_, ?_, hb⟩
  obtain ⟨r, rfl, -, -⟩ := h
  rw [withFamilies, withFamilies]
  cases q <;> cases b
  all_goals
    obtain ⟨rfl, he⟩ := he
    rw [he]
    exact ⟨rfl, rfl⟩

theorem KeyWorld.Shows.halt (h : w.Shows v)
    (hh : Orchestrator.halt w.rest w'.rest ∧ w'.keys = w.keys) :
    ∃ v', Orchestrator.halt v v' ∧ w'.Shows v' := by
  obtain ⟨hh, hk⟩ := hh
  rw [Orchestrator.halt] at hh
  have hb : w'.Shows (w'.withFamilies v.redis) := h.beside hk (by rw [hh])
  refine ⟨_, ?_, hb⟩
  obtain ⟨r, rfl, -, -⟩ := h
  rw [withFamilies, withFamilies, hh]
  rfl

end

section
variable [TaskJson Text] {N : String → Prop} (hN : ∀ id, N id → Regular id) {S : Setup Event}
include hN

/-- The families of keys simulate the one namespace. -/
theorem families_simulate :
    Simulates (keySystem Text S) (system Text S) (Cmd.Names N) KeyWorld.Shows where
  body _ := rfl
  answer := by
    intro w v i c r w' l h hc ha
    cases ha with
    | cmd hx =>
      obtain ⟨v', hx', h'⟩ := h.exec hN hc hx
      exact ⟨v', .cmd hx', h'⟩
    | abort hx =>
      obtain ⟨v', hx', h'⟩ := h.abort hN hc hx
      exact ⟨v', .abort hx', h'⟩
  spawn _ _ _ _ h hs := h.spawn hs
  exit _ _ _ _ _ _ h he := h.exit he
  env _ _ _ _ h ht := h.tick ht
  halt _ _ _ h hh := h.halt hh

/-- A run over the one namespace, whose task ids do not look like digests, is one over the
families. What is allowed of its steps carries over. -/
theorem families_of_run {ok : KeyFilter Text Event} {ok' : Filter Text Event}
    {tr : List (SysLabel Text Event)}
    {s : Config (Cmd Text Event) Cmd.Answer (Except Exc Returned) (KeyWorld Text Event) Kind}
    (hd : ∀ tr w l w', ok tr w l w' → draws N tr w l w')
    (hok : ∀ tr w l w' v v', w.Shows v → w'.Shows v' → ok tr w l w' → ok' tr v l v')
    (hr : Run (keySystem Text S) ok (.idle .init) tr s) :
    ∃ v, Run (system Text S) ok' (.idle .init) tr ⟨v, s.pool⟩ ∧ s.world.Shows v := by
  have hs : Simulates (keySystem Text S) (system Text S) (Cmd.Names N) KeyWorld.Shows :=
    families_simulate hN
  exact hs.run (tidy_contract hN) Keyspace.tidy_empty KeyWorld.shows_init hd hok hr

theorem shown_of_run {tr : List (SysLabel Text Event)}
    {s : Config (Cmd Text Event) Cmd.Answer (Except Exc Returned) (KeyWorld Text Event) Kind}
    (hr : Run (keySystem Text S) (draws N) (.idle .init) tr s) :
    ∃ v, Run (system Text S) anyway (.idle .init) tr ⟨v, s.pool⟩ ∧ s.world.Shows v :=
  families_of_run hN (fun _ _ _ _ h => h) (fun _ _ _ _ _ _ _ _ _ => trivial) hr

end

section
variable [TaskJson Text] {S : Setup Event} {tr : List (SysLabel Text Event)}
  {s : Config (Cmd Text Event) Cmd.Answer (Except Exc Returned) (KeyWorld Text Event) Kind}

/-- What is allowed of the labels of a run, with ids that `uuid4().hex` can draw. -/
def hexed (L : List (SysLabel Text Event) → SysLabel Text Event → Prop) : KeyFilter Text Event :=
  fun tr w l w' => draws Colonless tr w l w' ∧ L tr l

theorem refinement_law {L : List (SysLabel Text Event) → SysLabel Text Event → Prop}
    (hr : Run (keySystem Text S) (hexed L) (.idle .init) tr s) :
    ∃ v, Run (system Text S) (fun tr _ l _ => L tr l) (.idle .init) tr ⟨v, s.pool⟩ ∧
      s.world.Shows v :=
  families_of_run (fun _ => regular_of_colonless) (fun _ _ _ _ h => h.1)
    (fun _ _ _ _ _ _ _ _ h => h.2) hr

theorem refinement_law_after : ∃ tr s v,
    Run (keySystem (Task ⊕ String) keyDemo) (hexed fun _ _ => True) (.idle .init) tr s ∧
    s.world.keys = keysAfter ∧
    Run (system (Task ⊕ String) keyDemo) (fun _ _ _ _ => True) (.idle .init) tr ⟨v, s.pool⟩ ∧
    s.world.Shows v := by
  obtain ⟨tr, s, hr, hk⟩ := keyRun_after
  have hr' : Run (keySystem (Task ⊕ String) keyDemo) (hexed fun _ _ => True) (.idle .init) tr s :=
    hr.refine fun _ _ _ _ _ _ h => ⟨h, trivial⟩
  obtain ⟨v, hv, hs⟩ := refinement_law hr'
  exact ⟨tr, s, v, hr', hk, hv, hs⟩

/-- Every command about a key that was not cut short has been carried out. -/
def Unfailing (tr : List (SysLabel Text Event)) : Prop :=
  ∀ i c r, Label.cmd i c r ∈ tr → c.onKeys = true → ∃ a, r = .ok a

/-- No command finds a value of a type that is not its own under a key. -/
theorem type_law (hr : KeyRun Text S tr s) : Unfailing tr := by
  have hN (id : String) : Colonless id → Regular id := regular_of_colonless
  induction hr with
  | nil =>
    intro i c r hl
    cases hl
  | @cons tr s l s' hr hs _ ih =>
    intro i c r hl hc
    rcases List.mem_cons.1 hl with rfl | hl
    · obtain ⟨v, -, hv⟩ := shown_of_run hN hr
      have hk := (tidy_contract hN).kept Keyspace.tidy_empty hr
      cases hs with
      | @answer _ _ _ k _ _ _ hp ha =>
        cases ha with
        | cmd hx =>
          obtain ⟨v', hx', -⟩ := hv.exec hN (hk.pool i _ _ hp).1 hx
          exact succeeds_of_exec hc hx'
    · exact ih i c r hl hc

theorem type_law_after : ∃ tr s, KeyRun (Task ⊕ String) keyDemo tr s ∧ s.world.keys = keysAfter ∧
    Unfailing tr := by
  obtain ⟨tr, s, hr, hk⟩ := keyRun_after
  exact ⟨tr, s, hr, hk, type_law hr⟩

end

end Orchestrator
