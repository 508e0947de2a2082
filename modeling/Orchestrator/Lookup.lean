import Orchestrator.Concurrency.Eval
import Orchestrator.KeySystem
import Orchestrator.Schedule

namespace Orchestrator
open Concurrency Async
set_option autoImplicit true

namespace Keyspace

/-- The key of a task with this id is not one that is there for something else. -/
def ApartLaw (K : Keyspace Text) (taskId : String) : Prop :=
  ∀ n : KeyName, n.kind ≠ .task → K n.key ≠ none → taskKey taskId ≠ n.key

/-- The id is not `digest:` and a digest that is registered. -/
def Unclaimed (K : Keyspace Text) (taskId : String) : Prop :=
  ∀ d, K (dedupKey d) ≠ none → taskId ≠ "digest:" ++ d

end Keyspace

theorem apartLaw_iff {K : Keyspace Text} {taskId : String} :
    K.ApartLaw taskId ↔ K.Unclaimed taskId := by
  constructor
  · intro h d hd he
    exact h ⟨.digest, d⟩ nofun hd (taskKey_eq_dedupKey.2 he)
  · intro h n hn hk he
    have hk' : (⟨.task, taskId⟩ : KeyName).key = n.key := he
    rcases KeyName.key_inj hk' with rfl | ⟨⟨-, hd⟩, hf⟩ | ⟨⟨ht, -⟩, -⟩
    · exact hn rfl
    · obtain ⟨k, d⟩ := n
      obtain rfl : k = .digest := hd
      exact h d hk hf
    · exact hn ht

variable [TaskJson Text] [RawText Text]

/-- What `GET /tasks/{task_id}` answers. -/
inductive TaskReply where
  | found (r : TaskResponse)
  | notFound (detail : String)

def getTask (S : Setup Event) (taskId : String) : Py Text Event σ TaskReply := do
  match ← TaskStore.get taskId with
  | none => return .notFound s!"Task {S.repr taskId} not found"
  | some task => return .found (.fromTask task)

/-- The function runs to its end alone, and leaves the keys as they are and a result with `Q`. -/
def Reads (K : Keyspace Text) (p : Py Text Event Unit α) (Q : Except Exc α → Prop) : Prop :=
  (∃ o K', (p ()).Eval Keyspace.exec K o K') ∧
    ∀ o K', (p ()).Eval Keyspace.exec K o K' → K' = K ∧ Q o.1

namespace Keyspace

/-- A record of this task is stored under its id. -/
def Stores (K : Keyspace Text) (t : Task) : Prop :=
  ∃ x ttl, K (taskKey t.taskId) = some (.string x ttl) ∧ parse x = some t

/-- `TaskStore.get` gives the stored task with this id, or none if there is none. -/
def GetLaw (Event : Type) (K : Keyspace Text) (taskId : String) : Prop :=
  Reads K (TaskStore.get taskId : Py Text Event Unit (Option Task)) fun r =>
    ∃ found, r = .ok found ∧ ∀ t, found = some t ↔ K.Stores t ∧ t.taskId = taskId

/-- The endpoint shows the stored task with this id, or says that it was not found. -/
def EndpointLaw (S : Setup Event) (K : Keyspace Text) (taskId : String) : Prop :=
  Reads K (getTask S taskId : Py Text Event Unit TaskReply) fun r =>
    (∃ t, K.Stores t ∧ t.taskId = taskId ∧ r = .ok (.found (.fromTask t))) ∨
      (¬∃ t, K.Stores t ∧ t.taskId = taskId) ∧
        r = .ok (.notFound s!"Task {S.repr taskId} not found")

/-- What `TaskStore.get` comes to. -/
def lookup (K : Keyspace Text) (taskId : String) : Except Exc (Option Task) :=
  match K.get (taskKey taskId) with
  | .error e => .error e
  | .ok none => .ok none
  | .ok (some raw) =>
    match modelValidateJson raw with
    | .ok task => .ok (some task)
    | .error msg => .error ⟨.value, msg⟩

end Keyspace

theorem get_eval_iff {K K' : Keyspace Text} {taskId : String} {o : Except Exc (Option Task) × σ}
    {s : σ} : ((TaskStore.get taskId : Py Text Event σ (Option Task)) s).Eval Keyspace.exec K o K' ↔
      o = (K.lookup taskId, s) ∧ K' = K := by
  refine eval_bind.trans ?_
  rw [Keyspace.lookup]
  constructor
  · rintro ⟨r, s', K₁, hc, h⟩
    obtain ⟨_, ⟨rfl, rfl⟩, ho⟩ := eval_call.1 hc
    cases ho
    generalize K₁.get (taskKey taskId) = r at h
    rcases r with e | _ | raw
    · exact h
    · exact eval_pure.1 h
    · cases hx : (modelValidateJson raw : Except String Task) with
      | error msg =>
        simp only [hx] at h ⊢
        exact Coro.eval_ret.1 h
      | ok t =>
        simp only [hx] at h ⊢
        exact eval_pure.1 h
  · rintro ⟨rfl, rfl⟩
    refine ⟨_, s, K', eval_call.2 ⟨_, ⟨rfl, rfl⟩, rfl⟩, ?_⟩
    generalize K'.get (taskKey taskId) = r
    rcases r with e | _ | raw
    · exact ⟨rfl, rfl⟩
    · exact eval_pure.2 ⟨rfl, rfl⟩
    · cases hx : (modelValidateJson raw : Except String Task) with
      | error msg =>
        simp only [hx]
        exact Coro.eval_ret.2 ⟨rfl, rfl⟩
      | ok t =>
        simp only [hx]
        exact eval_pure.2 ⟨rfl, rfl⟩

theorem reads_get {K : Keyspace Text} {taskId : String} {Q : Except Exc (Option Task) → Prop} :
    Reads K (TaskStore.get taskId : Py Text Event Unit (Option Task)) Q ↔ Q (K.lookup taskId) := by
  constructor
  · intro h
    exact (h.2 _ K (get_eval_iff.2 ⟨rfl, rfl⟩)).2
  · intro h
    refine ⟨⟨_, K, get_eval_iff.2 ⟨rfl, rfl⟩⟩, fun o K' ho => ?_⟩
    obtain ⟨rfl, rfl⟩ := get_eval_iff.1 ho
    exact ⟨rfl, h⟩

/-- What the endpoint makes of a lookup. -/
def TaskReply.of (S : Setup Event) (taskId : String) : Option Task → TaskReply
  | none => .notFound s!"Task {S.repr taskId} not found"
  | some task => .found (.fromTask task)

theorem reads_getTask {S : Setup Event} {K : Keyspace Text} {taskId : String}
    {Q : Except Exc TaskReply → Prop} :
    Reads K (getTask S taskId : Py Text Event Unit TaskReply) Q ↔
      Q ((K.lookup taskId).map (TaskReply.of S taskId)) := by
  have heval (o : Except Exc TaskReply × Unit) (K' : Keyspace Text) :
      ((getTask S taskId : Py Text Event Unit TaskReply) ()).Eval Keyspace.exec K o K' ↔
        o = ((K.lookup taskId).map (TaskReply.of S taskId), ()) ∧ K' = K := by
    refine eval_bind.trans ?_
    constructor
    · rintro ⟨r, s', K₁, hg, h⟩
      obtain ⟨he, rfl⟩ := get_eval_iff.1 hg
      cases he
      generalize K₁.lookup taskId = found at h
      rcases found with e | _ | t
      · exact h
      · exact eval_pure.1 h
      · exact eval_pure.1 h
    · rintro ⟨rfl, rfl⟩
      refine ⟨_, (), K', get_eval_iff.2 ⟨rfl, rfl⟩, ?_⟩
      generalize K'.lookup taskId = found
      rcases found with e | _ | t
      · exact ⟨rfl, rfl⟩
      · exact eval_pure.2 ⟨rfl, rfl⟩
      · exact eval_pure.2 ⟨rfl, rfl⟩
  constructor
  · intro h
    exact (h.2 _ K ((heval _ _).2 ⟨rfl, rfl⟩)).2
  · intro h
    refine ⟨⟨_, K, (heval _ _).2 ⟨rfl, rfl⟩⟩, fun o K' ho => ?_⟩
    obtain ⟨rfl, rfl⟩ := (heval o K').1 ho
    exact ⟨rfl, h⟩

section
variable {N : String → Prop} {K : Keyspace Text} {taskId : String} (h : K.Tidy N)
include h

/-- A task key that nothing else claims is free, or holds the task. -/
theorem Keyspace.Tidy.unclaimed (hu : K.Unclaimed taskId) : K (taskKey taskId) = none ∨
    ∃ t : Task, t.taskId = taskId ∧
      K (taskKey taskId) = some (.string (modelDumpJson t) none) := by
  cases hv : K (taskKey taskId) with
  | none => exact .inl rfl
  | some v =>
    obtain ⟨n, hk, hh⟩ := h _ v hv
    have hk' : n.key = (⟨.task, taskId⟩ : KeyName).key := hk
    rcases KeyName.key_inj hk' with rfl | ⟨⟨-, hd⟩, -⟩ | ⟨⟨-, hd⟩, hf⟩
    · cases hh with
      | @task t ht => exact .inr ⟨t, rfl, rfl⟩
    · cases hd
    · obtain ⟨k, d⟩ := n
      obtain rfl : k = .digest := hd
      refine absurd hf (hu d ?_)
      have hd' : dedupKey d = taskKey taskId := hk
      rw [hd', hv]
      exact Option.some_ne_none v

/-- A task key that a digest claims holds an id. -/
theorem Keyspace.Tidy.claimed (hN : ∀ id, N id → Regular id) (hu : ¬K.Unclaimed taskId) :
    ∃ id, N id ∧ K.get (taskKey taskId) = .ok (some (ofString id)) := by
  obtain ⟨d, hu⟩ := not_forall.1 hu
  obtain ⟨hd, he⟩ := Classical.not_imp.1 hu
  obtain ⟨v, hv⟩ := Option.ne_none_iff_exists'.1 hd
  obtain ⟨id, hid, rfl⟩ := h.digest hN hv
  refine ⟨id, hid, ?_⟩
  rw [Keyspace.get, taskKey_eq_dedupKey.2 (not_not.1 he), hv]

/-- What is found under a key that nothing else claims. -/
theorem Keyspace.Tidy.lookup (hu : K.Unclaimed taskId) : ∃ found, K.lookup taskId = .ok found ∧
    ∀ t, found = some t ↔ K.Stores t ∧ t.taskId = taskId := by
  rcases h.unclaimed hu with hv | ⟨t, rfl, hv⟩
  · refine ⟨none, by rw [Keyspace.lookup, Keyspace.get, hv], fun t => ⟨nofun, ?_⟩⟩
    rintro ⟨⟨x, ttl, hx, -⟩, rfl⟩
    cases hv.symm.trans hx
  · refine ⟨some t, ?_, fun u => ⟨?_, ?_⟩⟩
    · rw [Keyspace.lookup, Keyspace.get, hv]
      simp only [validate_dump]
    · rintro ⟨⟩
      exact ⟨⟨_, _, hv, parse_dump t⟩, rfl⟩
    · rintro ⟨⟨x, ttl, hx, hp⟩, hid⟩
      rw [hid, hv] at hx
      cases hx
      exact (parse_dump t).symm.trans hp

end

/-- The ids that `uuid4().hex` draws have no colon in them. -/
def Colonless (id : String) : Prop := ':' ∉ id.toList

theorem regular_of_colonless {id : String} (h : Colonless id) : Regular id := by
  rintro d rfl
  apply h
  rw [String.toList_append]
  exact List.mem_append_left _ (by decide)

abbrev KeyRun (Text : Type) [TaskJson Text] [RawText Text] (S : Setup Event)
    (tr : List (SysLabel Text Event))
    (s : Config (Cmd Text Event) Cmd.Answer (Except Exc Returned) (KeyWorld Text Event) Kind) :
    Prop :=
  Run (keySystem Text S) (draws Colonless) (.idle .init) tr s

theorem lookup_law {S : Setup Event} {tr : List (SysLabel Text Event)}
    {s : Config (Cmd Text Event) Cmd.Answer (Except Exc Returned) (KeyWorld Text Event) Kind}
    (hraw : ∀ id, Colonless id → ∃ msg,
      (modelValidateJson (ofString id : Text) : Except String Task) = .error msg)
    (hr : KeyRun Text S tr s) (taskId : String) :
    (s.world.keys.GetLaw Event taskId ↔ s.world.keys.Unclaimed taskId) ∧
      (s.world.keys.EndpointLaw S taskId ↔ s.world.keys.Unclaimed taskId) ∧
      (s.world.keys.ApartLaw taskId ↔ s.world.keys.Unclaimed taskId) := by
  have ht : s.world.keys.Tidy Colonless := tidy_of_run (fun _ => regular_of_colonless) hr
  have hclaimed (hu : ¬s.world.keys.Unclaimed taskId) :
      ∃ e, s.world.keys.lookup taskId = .error e := by
    obtain ⟨id, hid, hg⟩ := ht.claimed (fun _ => regular_of_colonless) hu
    obtain ⟨msg, hx⟩ := hraw id hid
    refine ⟨⟨.value, msg⟩, ?_⟩
    rw [Keyspace.lookup, hg]
    simp only [hx]
  refine ⟨⟨fun h => ?_, fun hu => ?_⟩, ⟨fun h => ?_, fun hu => ?_⟩, apartLaw_iff⟩
  · by_contra hu
    obtain ⟨e, he⟩ := hclaimed hu
    obtain ⟨found, hf, -⟩ := reads_get.1 h
    cases he.symm.trans hf
  · exact reads_get.2 (ht.lookup hu)
  · by_contra hu
    obtain ⟨e, he⟩ := hclaimed hu
    have h := reads_getTask.1 h
    rw [he] at h
    rcases h with ⟨_, -, -, h⟩ | ⟨-, h⟩ <;> cases h
  · rw [Keyspace.EndpointLaw, reads_getTask]
    obtain ⟨found, hf, hs⟩ := ht.lookup hu
    rw [hf]
    cases found with
    | none => exact .inr ⟨fun ⟨t, hst⟩ => (by cases (hs t).2 hst), rfl⟩
    | some t =>
      obtain ⟨hst, hid⟩ := (hs t).1 rfl
      exact .inl ⟨t, hst, hid, rfl⟩

/-! A small deployment. A text is a task, or a string that is not the JSON of one. -/

instance : TaskJson (Task ⊕ String) where
  modelDumpJson := .inl
  modelValidateJson x := match x with
    | .inl t => .ok t
    | .inr _ => .error "Invalid JSON"
  validate_dump _ := rfl

instance : RawText (Task ⊕ String) where
  ofString := .inr
  toString x := match x with
    | .inl t => t.taskId
    | .inr s => s
  to_of _ := rfl

/-- The SHA-256 of the name and the requirement of the request. -/
def keyDigest : String := "376793968323a1967e8fdf496c9bd83e098a8511eac005e11d978e78276b4e76"

def keyDemo : Setup String := { demo with sha256 := fun _ => keyDigest }

def keyTask : Task where
  taskId := "u"
  projectName := "p"
  requirement := "r"
  createdAt := 0
  updatedAt := 0

/-- The keys after a request has registered its digest. -/
def keysAfter : Keyspace (Task ⊕ String) :=
  Keyspace.put (Keyspace.put (Keyspace.put (fun _ => none) (taskKey "u")
    (.string (.inl keyTask) none)) (projectTasksKey "p") (.set ["u"])) (dedupKey keyDigest)
      (.string (.inr "u") none)

section
variable {S : Setup Event} {tr : List (SysLabel Text Event)}
  {pool : Nat → Option (Kind × Coro (Cmd Text Event) Cmd.Answer (Except Exc Returned))}
  {K K' : Keyspace Text} {v v' : World Text Event} {i : Nat} {q : Kind} {c : Cmd Text Event}
  {k : c.Answer → Coro (Cmd Text Event) Cmd.Answer (Except Exc Returned)} {r : c.Answer}

theorem KeyRun.spawn (hr : KeyRun Text S tr ⟨⟨K, v⟩, pool⟩) (hp : pool i = none)
    (hs : Orchestrator.spawn q v v') : ∃ tr', KeyRun Text S tr' ⟨⟨K, v'⟩,
      Function.update pool i (some (q, (keySystem Text S).body q))⟩ := by
  have hstep : (keySystem Text S).Step ⟨⟨K, v⟩, pool⟩ (.spawn i q) ⟨⟨K, v'⟩, _⟩ :=
    .spawn hp ⟨hs, rfl⟩
  exact ⟨_, hr.cons hstep trivial⟩

theorem KeyRun.exit {b : Except Exc Returned} (hr : KeyRun Text S tr ⟨⟨K, v⟩, pool⟩)
    (hp : pool i = some (q, .ret b)) (he : Orchestrator.exit q b v v' none) :
    ∃ tr', KeyRun Text S tr' ⟨⟨K, v'⟩, Function.update pool i none⟩ := by
  have hstep : (keySystem Text S).Step ⟨⟨K, v⟩, pool⟩ (.exit i q b) ⟨⟨K, v'⟩, _⟩ :=
    .exit (o := none) hp ⟨he, rfl⟩
  exact ⟨_, hr.cons hstep trivial⟩

theorem KeyRun.onKeys (hr : KeyRun Text S tr ⟨⟨K, v⟩, pool⟩) (hp : pool i = some (q, .await c k))
    (hc : c.onKeys = true) (hx : Keyspace.exec c r K K') :
    ∃ tr', KeyRun Text S tr' ⟨⟨K', v⟩, Function.update pool i (some (q, k r))⟩ := by
  have hw : KeyWorld.exec c r ⟨K, v⟩ ⟨K', v⟩ := ⟨hx, by rw [if_pos hc]⟩
  refine ⟨_, hr.cons (.answer hp (.cmd hw)) ?_⟩
  cases c with
  | uuid4 => cases hc
  | _ => trivial

theorem KeyRun.beside (hr : KeyRun Text S tr ⟨⟨K, v⟩, pool⟩) (hp : pool i = some (q, .await c k))
    (hc : c.onKeys = false) (hx : exec c r v v')
    (hok : draws Colonless tr ⟨K, v⟩ (.cmd i c r) ⟨K, v'⟩) :
    ∃ tr', KeyRun Text S tr' ⟨⟨K, v'⟩, Function.update pool i (some (q, k r))⟩ := by
  have hk : Keyspace.exec c r K K := by
    cases c with
    | get _ | setNx _ _ | set _ _ | sadd _ _ | smembers _ | mget _ | getDigest _ | setDigest _ _
    | delDigest _ | lpush _ | brpop | scan | acquireLock _ _ _ | evalRelease _ _ => cases hc
    | _ => rfl
  have hw : KeyWorld.exec c r ⟨K, v⟩ ⟨K, v'⟩ := ⟨hk, by rw [hc]; exact hx⟩
  exact ⟨_, hr.cons (.answer hp (.cmd hw)) hok⟩

end

theorem keyRun_after : ∃ tr s, KeyRun (Task ⊕ String) keyDemo tr s ∧ s.world.keys = keysAfter := by
  have hscan : Keyspace.Scanned (fun _ => none : Keyspace (Task ⊕ String)) [(0, [])] := by
    refine ⟨⟨[], [], rfl, nofun⟩, fun page hp id hid => ?_, fun _ _ h => absurd rfl h⟩
    cases List.mem_singleton.1 hp
    cases hid
  have h : KeyRun (Task ⊕ String) keyDemo [] ⟨⟨fun _ => none, .init⟩, fun _ => none⟩ := .nil
  obtain ⟨_, h⟩ := h.spawn (i := 0) (q := .recover) rfl ⟨rfl, rfl⟩
  obtain ⟨_, h⟩ := h.onKeys (i := 0) (c := .scan) (r := .ok [(0, [])]) rfl rfl
    ⟨⟨_, rfl, hscan⟩, rfl⟩
  obtain ⟨_, h⟩ := h.exit (i := 0) (b := .ok (.recovered 0)) rfl ⟨rfl, rfl⟩
  obtain ⟨_, h⟩ := h.spawn (i := 0) (q := .request demoRequest) rfl ⟨rfl, rfl⟩
  obtain ⟨_, h⟩ := h.onKeys (i := 0) (c := .smembers "p") (r := .ok []) rfl rfl
    (And.intro ⟨[], rfl, .refl _⟩ rfl)
  obtain ⟨_, h⟩ := h.onKeys (i := 0) (c := .getDigest keyDigest) (r := .ok none) rfl rfl
    ⟨rfl, rfl⟩
  obtain ⟨_, h⟩ := h.beside (i := 0) (c := .uuid4) (r := .ok "u") rfl rfl
    ⟨"u", nofun, rfl, rfl⟩ (show ':' ∉ "u".toList by decide)
  obtain ⟨_, h⟩ := h.beside (i := 0) (c := .now) (r := .ok 0) rfl rfl ⟨⟨_, rfl⟩, rfl⟩ trivial
  obtain ⟨_, h⟩ := h.beside (i := 0) (c := .now) (r := .ok 0) rfl rfl ⟨⟨_, rfl⟩, rfl⟩ trivial
  obtain ⟨_, h⟩ := h.onKeys (i := 0) (c := .setNx "u" (.inl keyTask)) (r := .ok true) rfl rfl
    (And.intro rfl rfl)
  obtain ⟨_, h⟩ := h.onKeys (i := 0) (c := .sadd "p" "u") (r := .ok ()) rfl rfl
    (And.intro rfl rfl)
  obtain ⟨_, h⟩ := h.onKeys (i := 0) (c := .setDigest keyDigest "u") (r := .ok ()) rfl rfl
    ⟨rfl, rfl⟩
  exact ⟨_, _, h, rfl⟩

theorem invalid_raw (id : String) (_ : Colonless id) : ∃ msg,
    (modelValidateJson (ofString id : Task ⊕ String) : Except String Task) = .error msg :=
  ⟨_, rfl⟩

theorem lookup_law_after : ∃ tr s, KeyRun (Task ⊕ String) keyDemo tr s ∧
    s.world.keys.GetLaw String "u" ∧ s.world.keys.EndpointLaw keyDemo "u" ∧
    s.world.keys.ApartLaw "u" ∧ ¬s.world.keys.GetLaw String ("digest:" ++ keyDigest) ∧
    ¬s.world.keys.EndpointLaw keyDemo ("digest:" ++ keyDigest) ∧
    ¬s.world.keys.ApartLaw ("digest:" ++ keyDigest) := by
  obtain ⟨tr, s, hr, hk⟩ := keyRun_after
  have hu : s.world.keys.Unclaimed "u" := fun d _ =>
    regular_of_colonless (show ':' ∉ "u".toList by decide) d
  have hn : ¬s.world.keys.Unclaimed ("digest:" ++ keyDigest) := by
    intro h
    refine h keyDigest ?_ rfl
    rw [hk, keysAfter, Keyspace.put, Function.update_self]
    intro hnone
    cases hnone
  obtain ⟨hg, he, ha⟩ := lookup_law invalid_raw hr "u"
  obtain ⟨hg', he', ha'⟩ := lookup_law invalid_raw hr ("digest:" ++ keyDigest)
  exact ⟨tr, s, hr, hg.2 hu, he.2 hu, ha.2 hu, mt hg'.1 hn, mt he'.1 hn, mt ha'.1 hn⟩

/-- A request for the task whose id is that of the digest is not answered. -/
theorem not_lookup_law : ¬∀ tr s, KeyRun (Task ⊕ String) keyDemo tr s →
    ∀ taskId, s.world.keys.GetLaw String taskId ∧ s.world.keys.EndpointLaw keyDemo taskId := by
  intro h
  obtain ⟨tr, s, hr, hk⟩ := keyRun_after
  have hraise : s.world.keys.lookup ("digest:" ++ keyDigest) = .error ⟨.value, "Invalid JSON"⟩ := by
    rw [hk]
    rfl
  obtain ⟨found, hf, -⟩ := reads_get.1 (h tr s hr ("digest:" ++ keyDigest)).1
  cases hraise.symm.trans hf

end Orchestrator
