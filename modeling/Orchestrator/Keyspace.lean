import Orchestrator.Store
import Orchestrator.Python.Format

namespace Orchestrator
open Concurrency Async Python
set_option autoImplicit true

/-! The names of the keys, which are all in one namespace. -/

def taskFormat : Template := ⟨"cio:task:", ""⟩

def projectTasksFormat : Template := ⟨"cio:project:", ":tasks"⟩

def digestFormat : Template := ⟨"cio:task:digest:", ""⟩

def lockFormat : Template := ⟨"cio:lock:", ""⟩

def taskKey (taskId : String) : String := taskFormat.format taskId

def projectTasksKey (projectName : String) : String := projectTasksFormat.format projectName

/-- The key that `_digest_key` makes of a digest. -/
def dedupKey (digest : String) : String := digestFormat.format digest

def lockKey (projectName : String) : String := lockFormat.format projectName

def queueKey : String := "cio:queue:tasks"

inductive KeyKind where
  | task | projectTasks | digest | lock | queue
  deriving DecidableEq

def KeyKind.format : KeyKind → Template
  | .task => taskFormat
  | .projectTasks => projectTasksFormat
  | .digest => digestFormat
  | .lock => lockFormat
  | .queue => ⟨queueKey, ""⟩

/-- What a key is for: its kind, and what is put into its format. -/
structure KeyName where
  kind : KeyKind
  field : String := ""
  deriving DecidableEq

def KeyName.key (n : KeyName) : String := n.kind.format.format n.field

/-- The kinds of keys that can have one name. -/
def KeyKind.Meets (k k' : KeyKind) : Prop := k = .task ∧ k' = .digest

instance (k k' : KeyKind) : Decidable (k.Meets k') := inferInstanceAs (Decidable (_ ∧ _))

theorem KeyKind.apart {k k' : KeyKind} (hk : k ≠ k') (h : ¬k.Meets k') (h' : ¬k'.Meets k) :
    k.format.Apart k'.format := by
  revert hk h h'
  cases k <;> cases k' <;> decide

/-- The key of this task id is not one that a digest can have. -/
def Regular (taskId : String) : Prop := ∀ h, taskId ≠ "digest:" ++ h

theorem taskKey_eq_dedupKey {taskId h : String} :
    taskKey taskId = dedupKey h ↔ taskId = "digest:" ++ h := by
  have hd : dedupKey h = taskKey ("digest:" ++ h) := taskFormat.format_append "digest:" h
  rw [hd, taskKey, taskKey, Template.format_inj]

/-- Keys of one name are for the same thing, or one of them is for a task whose id looks like a
digest. -/
theorem KeyName.key_inj {n n' : KeyName} (h : n.key = n'.key) : n = n' ∨
    n.kind.Meets n'.kind ∧ n.field = "digest:" ++ n'.field ∨
    n'.kind.Meets n.kind ∧ n'.field = "digest:" ++ n.field := by
  obtain ⟨k, x⟩ := n
  obtain ⟨k', x'⟩ := n'
  by_cases hk : k = k'
  · subst hk
    obtain rfl : x = x' := Template.format_inj.1 h
    exact .inl rfl
  · by_cases hm : k.Meets k'
    · obtain ⟨rfl, rfl⟩ := hm
      exact .inr (.inl ⟨⟨rfl, rfl⟩, taskKey_eq_dedupKey.1 h⟩)
    · by_cases hm' : k'.Meets k
      · obtain ⟨rfl, rfl⟩ := hm'
        exact .inr (.inr ⟨⟨rfl, rfl⟩, taskKey_eq_dedupKey.1 h.symm⟩)
      · exact absurd h ((KeyKind.apart hk hm hm').format_ne x x')

theorem KeyName.key_ne {n n' : KeyName} (hk : n.kind ≠ n'.kind) (h : ¬n.kind.Meets n'.kind)
    (h' : ¬n'.kind.Meets n.kind) : n.key ≠ n'.key :=
  (KeyKind.apart hk h h').format_ne n.field n'.field

theorem queueKey_eq : (⟨.queue, ""⟩ : KeyName).key = queueKey := by decide

theorem taskKey_inj {id id' : String} : taskKey id = taskKey id' ↔ id = id' := Template.format_inj

theorem projectTasksKey_inj {p p' : String} : projectTasksKey p = projectTasksKey p' ↔ p = p' :=
  Template.format_inj

theorem taskKey_ne_projectTasksKey (id p : String) : taskKey id ≠ projectTasksKey p := by
  have h : taskFormat.Apart projectTasksFormat := by decide
  exact h.format_ne id p

theorem dedupKey_ne_projectTasksKey (d p : String) : dedupKey d ≠ projectTasksKey p := by
  have h : digestFormat.Apart projectTasksFormat := by decide
  exact h.format_ne d p

theorem KeyName.key_ne_queueKey {n : KeyName} (h : n.kind ≠ .queue) : n.key ≠ queueKey := by
  rw [← queueKey_eq]
  exact key_ne h (fun hm => (by cases hm.2)) fun hm => (by cases hm.1)

/-- Texts are strings of Redis as well, which keeps ids and tokens as they are. -/
class RawText (Text : Type) where
  ofString : String → Text
  toString : Text → String
  to_of : ∀ s, toString (ofString s) = s

export RawText (ofString to_of)

attribute [simp] to_of

/-- What Redis keeps under a key. A string may have a number of seconds left. -/
inductive RedisValue (Text : Type) where
  | string (x : Text) (ttl : Option Nat)
  | set (members : List String)
  | list (items : List Text)

abbrev Keyspace (Text : Type) : Type := String → Option (RedisValue Text)

namespace Keyspace

def wrongType : Exc :=
  ⟨.other, "WRONGTYPE Operation against a key holding the wrong kind of value"⟩

/-- `GET`. -/
def get (K : Keyspace Text) (key : String) : Except Exc (Option Text) :=
  match K key with
  | none => .ok none
  | some (.string x _) => .ok (some x)
  | some _ => .error wrongType

def members (K : Keyspace Text) (key : String) : Except Exc (List String) :=
  match K key with
  | none => .ok []
  | some (.set ids) => .ok ids
  | some _ => .error wrongType

def items (K : Keyspace Text) (key : String) : Except Exc (List Text) :=
  match K key with
  | none => .ok []
  | some (.list xs) => .ok xs
  | some _ => .error wrongType

def put (K : Keyspace Text) (key : String) (v : RedisValue Text) : Keyspace Text :=
  Function.update K key (some v)

def del (K : Keyspace Text) (key : String) : Keyspace Text := Function.update K key none

/-- There is no key for a list without items. -/
def putItems (K : Keyspace Text) (key : String) (xs : List Text) : Keyspace Text :=
  if xs.isEmpty then K.del key else K.put key (.list xs)

/-- The pages of a complete scan for `cio:task:*`: the keys of tasks among them are not of digests,
and every key of a task is there. -/
structure Scanned (K : Keyspace Text) (pages : List (Nat × List ScanKey)) : Prop where
  ends : ∃ before keys, pages = before ++ [(0, keys)] ∧ ∀ page ∈ before, page.1 ≠ 0
  regular : ∀ page ∈ pages, ∀ id, ScanKey.task id ∈ page.2 → Regular id
  covers : ∀ id, Regular id → K (taskKey id) ≠ none → ∃ page ∈ pages, ScanKey.task id ∈ page.2

section
variable {K K' : Keyspace Text} {key key' : String} {v : RedisValue Text} {xs : List Text}

@[simp] theorem put_self : (K.put key v) key = some v := Function.update_self ..

theorem put_of_ne (h : key' ≠ key) : (K.put key v) key' = K key' := Function.update_of_ne h ..

@[simp] theorem del_self : (K.del key) key = none := Function.update_self ..

theorem del_of_ne (h : key' ≠ key) : (K.del key) key' = K key' := Function.update_of_ne h ..

theorem putItems_of_ne (h : key' ≠ key) : (K.putItems key xs) key' = K key' := by
  unfold putItems
  split
  · exact del_of_ne h
  · exact put_of_ne h

theorem items_putItems : (K.putItems key xs).items key = .ok xs := by
  unfold putItems items
  cases xs with
  | nil => rw [if_pos List.isEmpty_nil, del_self]
  | cons x xs => rw [if_neg (by exact nofun), put_self]

theorem members_congr (h : K' key = K key) : K'.members key = K.members key := by
  unfold members
  rw [h]

theorem items_congr (h : K' key = K key) : K'.items key = K.items key := by
  unfold items
  rw [h]

end

variable [RawText Text]

/-- The reply to a command, and the keys after it. Commands that are not about keys leave them as
they are. -/
def exec (c : Cmd Text Event) (r : c.Answer) (K K' : Keyspace Text) : Prop :=
  match c, r with
  | .get id, r => r = K.get (taskKey id) ∧ K' = K
  | .setNx id x, r =>
    if K (taskKey id) = none then r = .ok true ∧ K' = K.put (taskKey id) (.string x none)
    else r = .ok false ∧ K' = K
  | .set id x, r => r = .ok () ∧ K' = K.put (taskKey id) (.string x none)
  | .sadd p id, r =>
    match K.members (projectTasksKey p) with
    | .ok ids => r = .ok () ∧ K' = K.put (projectTasksKey p) (.set (ids.insert id))
    | .error e => r = .error e ∧ K' = K
  | .smembers p, r =>
    match K.members (projectTasksKey p) with
    | .ok ids => (∃ ids', r = .ok ids' ∧ ids'.Perm ids) ∧ K' = K
    | .error e => r = .error e ∧ K' = K
  | .mget ids, r => r = ids.mapM (fun id => K.get (taskKey id)) ∧ K' = K
  | .getDigest h, r => r = (K.get (dedupKey h)).map (Option.map RawText.toString) ∧ K' = K
  | .setDigest h id, r => r = .ok () ∧ K' = K.put (dedupKey h) (.string (ofString id) none)
  | .delDigest h, r => r = .ok () ∧ K' = K.del (dedupKey h)
  | .lpush x, r =>
    match K.items queueKey with
    | .ok xs => r = .ok () ∧ K' = K.putItems queueKey (x :: xs)
    | .error e => r = .error e ∧ K' = K
  | .brpop, r =>
    match K.items queueKey with
    | .ok xs => r = .ok xs.getLast? ∧ K' = K.putItems queueKey xs.dropLast
    | .error e => r = .error e ∧ K' = K
  | .scan, r => (∃ pages, r = .ok pages ∧ K.Scanned pages) ∧ K' = K
  | .acquireLock p τ ttl, r =>
    if K (lockKey p) = none then
      (r = .ok true ∧ 0 < ttl) ∧ K' = K.put (lockKey p) (.string (ofString τ) (some ttl))
    else (r = .ok false ∧ 0 < ttl) ∧ K' = K
  | .evalRelease p τ, r =>
    match K.get (lockKey p) with
    | .ok o => r = .ok () ∧ K' = if o.map RawText.toString = some τ then K.del (lockKey p) else K
    | .error e => r = .error e ∧ K' = K
  | _, _ => K' = K

section
variable {K K' : Keyspace Text} {id p : String} {x : Text}

theorem exec_get {r₀ : Except Exc (Option Text)} {r} (h : K.get (taskKey id) = r₀) :
    exec (.get id : Cmd Text Event) r K K' ↔ r = r₀ ∧ K' = K := by
  rw [← h]
  exact Iff.rfl

theorem exec_mget {ids : List String} {r₀ : Except Exc (List (Option Text))} {r}
    (h : ids.mapM (fun id => K.get (taskKey id)) = r₀) :
    exec (.mget ids : Cmd Text Event) r K K' ↔ r = r₀ ∧ K' = K := by
  rw [← h]
  exact Iff.rfl

theorem exec_setNx {r} (h : K (taskKey id) = none) : exec (.setNx id x : Cmd Text Event) r K K' ↔
    r = .ok true ∧ K' = K.put (taskKey id) (.string x none) := by
  rw [exec, if_pos h]

theorem exec_setNx_of_ne {r} (h : K (taskKey id) ≠ none) :
    exec (.setNx id x : Cmd Text Event) r K K' ↔ r = .ok false ∧ K' = K := by
  rw [exec, if_neg h]

theorem exec_set {r} : exec (.set id x : Cmd Text Event) r K K' ↔
    r = .ok () ∧ K' = K.put (taskKey id) (.string x none) := Iff.rfl

theorem exec_setDigest {d : String} {r} : exec (.setDigest d id : Cmd Text Event) r K K' ↔
    r = .ok () ∧ K' = K.put (dedupKey d) (.string (ofString id) none) := Iff.rfl

theorem exec_delDigest {d : String} {r} : exec (.delDigest d : Cmd Text Event) r K K' ↔
    r = .ok () ∧ K' = K.del (dedupKey d) := Iff.rfl

theorem exec_sadd {ids : List String} {r} (h : K.members (projectTasksKey p) = .ok ids) :
    exec (.sadd p id : Cmd Text Event) r K K' ↔
      r = .ok () ∧ K' = K.put (projectTasksKey p) (.set (ids.insert id)) := by
  rw [exec, h]

theorem exec_lpush {xs : List Text} {r} (h : K.items queueKey = .ok xs) :
    exec (.lpush x : Cmd Text Event) r K K' ↔
      r = .ok () ∧ K' = K.putItems queueKey (x :: xs) := by
  rw [exec, h]

theorem exec_brpop {xs : List Text} {r} (h : K.items queueKey = .ok xs) :
    exec (.brpop : Cmd Text Event) r K K' ↔
      r = .ok xs.getLast? ∧ K' = K.putItems queueKey xs.dropLast := by
  rw [exec, h]

end

end Keyspace

end Orchestrator
