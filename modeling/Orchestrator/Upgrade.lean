import Orchestrator.Python.Fields
import Orchestrator.Python.Lax
import Orchestrator.Recovery

namespace Orchestrator
open Concurrency Async Python
set_option autoImplicit true

def TaskStatus.value : TaskStatus → String
  | .pending => "pending"
  | .running => "running"
  | .success => "success"
  | .failed => "failed"
  | .interrupted => "interrupted"

def TaskMode.members : List TaskMode := [.new, .resume, .secondary, .unknown]

def TaskStatus.members : List TaskStatus := [.pending, .running, .success, .failed, .interrupted]

/-- A member of an enumeration by its value. -/
def readMember (members : List α) (value : α → String) (msg : String) : Json → Except String α
  | .str s => match members.find? fun a => value a = s with
    | some a => .ok a
    | none => .error msg
  | _ => .error msg

def readMode : Json → Except String TaskMode :=
  readMember TaskMode.members TaskMode.value
    "Input should be 'new', 'resume', 'secondary' or 'unknown'"

def readStatus : Json → Except String TaskStatus :=
  readMember TaskStatus.members TaskStatus.value
    "Input should be 'pending', 'running', 'success', 'failed' or 'interrupted'"

def readStr : Json → Except String String
  | .str s => .ok s
  | _ => .error "Input should be a valid string"

/-- What pydantic, `datetime` and JSON do for the records: the conversion to integers, the texts of
moments, the text of an error, and the texts of dictionaries. -/
structure TaskCodec (Text : Type) where
  int : Json → Except String Int
  isoformat : Nat → String
  datetime : Json → Except String Nat
  render : List Issue → String
  dumps : Json → Text
  loads : Text → Except String Json

/-- Integers are read as they are, moments as they were written, and so are dictionaries of texts
and integers. -/
structure TaskCodec.Lawful (K : TaskCodec Text) : Prop where
  int_int : ∀ n, K.int (.int n) = .ok n
  datetime_isoformat : ∀ n, K.datetime (.str (K.isoformat n)) = .ok n
  loads_dumps : ∀ items : List (String × Json), (items.map Prod.fst).Nodup →
    (∀ f ∈ items, (∃ s, f.2 = .str s) ∨ ∃ n, f.2 = .int n) →
    K.loads (K.dumps (.obj items)) = .ok (.obj items)

/-- The values of the default factories at one moment. -/
structure Fresh where
  taskId : String
  createdAt : Nat
  updatedAt : Nat

namespace TaskCodec

/-- A count below zero, which nothing writes, is no task here. -/
def count (K : TaskCodec Text) (j : Json) : Except String Nat :=
  match K.int j with
  | .ok n => if 0 ≤ n then .ok n.toNat else .error "negative"
  | .error msg => .error msg

def fields (K : TaskCodec Text) (t : Task) : List (String × Json) := [
  ("task_id", .str t.taskId),
  ("project_name", .str t.projectName),
  ("requirement", .str t.requirement),
  ("work_dir", .str t.workDir),
  ("config_json", .str t.configJson),
  ("mode", .str t.mode.value),
  ("status", .str t.status.value),
  ("created_at", .str (K.isoformat t.createdAt)),
  ("updated_at", .str (K.isoformat t.updatedAt)),
  ("retry_count", .int t.retryCount),
  ("status_detail", .str t.statusDetail)]

/-- The validation of a dictionary as a task. Other keys are ignored. -/
def validateFields (K : TaskCodec Text) (F : Fresh) (items : List (String × Json)) :
    Validated Task :=
  (Validated.ok Task.mk)
    |>.seq (readField items "task_id" readStr (some F.taskId))
    |>.seq (readField items "project_name" readStr none)
    |>.seq (readField items "requirement" readStr (some ""))
    |>.seq (readField items "work_dir" readStr (some ""))
    |>.seq (readField items "config_json" readStr (some ""))
    |>.seq (readField items "mode" readMode (some .unknown))
    |>.seq (readField items "status" readStatus (some .pending))
    |>.seq (readField items "created_at" K.datetime (some F.createdAt))
    |>.seq (readField items "updated_at" K.datetime (some F.updatedAt))
    |>.seq (readField items "retry_count" K.count (some 0))
    |>.seq (readField items "status_detail" readStr (some ""))

def modelValidate (K : TaskCodec Text) (F : Fresh) : Json → Except String Task
  | .obj items => match K.validateFields F items with
    | .ok t => .ok t
    | .bad issues => .error (K.render issues)
  | _ => .error (K.render [⟨[], "Input should be an object"⟩])

def modelDumpJson (K : TaskCodec Text) (t : Task) : Text := K.dumps (.obj (K.fields t))

def modelValidateJson (K : TaskCodec Text) (F : Fresh) (text : Text) : Except String Task :=
  match K.loads text with
  | .ok j => K.modelValidate F j
  | .error msg => .error msg

end TaskCodec

/-- The fields in `keep`, and the defaults of the others. A field without a default, or with one
that is new each time, is kept. -/
def Task.withDefaults (t : Task) (keep : String → Bool) : Task where
  taskId := t.taskId
  projectName := t.projectName
  requirement := if keep "requirement" then t.requirement else ""
  workDir := if keep "work_dir" then t.workDir else ""
  configJson := if keep "config_json" then t.configJson else ""
  mode := if keep "mode" then t.mode else .unknown
  status := if keep "status" then t.status else .pending
  createdAt := t.createdAt
  updatedAt := t.updatedAt
  retryCount := if keep "retry_count" then t.retryCount else 0
  statusDetail := if keep "status_detail" then t.statusDetail else ""

def Task.fieldNames : List String := [
  "task_id", "project_name", "requirement", "work_dir", "config_json", "mode", "status",
  "created_at", "updated_at", "retry_count", "status_detail"]

/-- The fields without a constant default. -/
def Task.ownFields : List String := ["task_id", "project_name", "created_at", "updated_at"]

/-- A dictionary has the fields of a task that are in `keep`, in any order and among any others. -/
def TaskCodec.Holds (K : TaskCodec Text) (items : List (String × Json)) (t : Task)
    (keep : String → Bool) : Prop :=
  ∀ key ∈ Task.fieldNames, items.lookup key = if keep key then (K.fields t).lookup key else none

theorem readMode_value (m : TaskMode) : readMode (.str m.value) = .ok m := by
  cases m <;> rfl

theorem readStatus_value (st : TaskStatus) : readStatus (.str st.value) = .ok st := by
  cases st <;> rfl

namespace TaskCodec
variable {Text : Type} {K : TaskCodec Text} {F : Fresh} {t : Task} {keep : String → Bool}
  {items : List (String × Json)}

theorem count_natCast (hK : K.Lawful) (n : Nat) : K.count (.int n) = .ok n := by
  rw [count, hK.int_int]
  exact if_pos (Int.natCast_nonneg n)

theorem validateFields_telling : (K.validateFields F items).Telling :=
  (Validated.telling_ok Task.mk).seq readField_telling
    |>.seq readField_telling |>.seq readField_telling |>.seq readField_telling
    |>.seq readField_telling |>.seq readField_telling |>.seq readField_telling
    |>.seq readField_telling |>.seq readField_telling |>.seq readField_telling
    |>.seq readField_telling

/-- A dictionary that is no task is refused for some of its fields. -/
theorem issues_of_bad {issues : List Issue}
    (h : K.validateFields F items = .bad issues) :
    issues ≠ [] ∧ ∀ issue ∈ issues, ∃ key ∈ Task.fieldNames, issue.loc = [key] := by
  have hissues : issues = (K.validateFields F items).issues := by rw [h]; rfl
  refine ⟨validateFields_telling issues h, fun issue hi => ?_⟩
  rw [hissues] at hi
  simp only [validateFields, Validated.issues_seq, Validated.issues_ok, List.nil_append,
    List.mem_append, or_assoc] at hi
  rcases hi with hi | hi | hi | hi | hi | hi | hi | hi | hi | hi | hi <;>
    exact ⟨_, by decide, readField_issues issue hi⟩

/-- Each field is read by itself. -/
theorem validateFields_holds (hK : K.Lawful) (hkeep : ∀ key ∈ Task.ownFields, keep key = true)
    (hi : K.Holds items t keep) : K.validateFields F items = .ok (t.withDefaults keep) := by
  have hown {α : Type} (key : String) {j : Json} {read : Json → Except String α} {d : Option α}
      {a : α} (hk : key ∈ Task.ownFields) (hm : key ∈ Task.fieldNames)
      (hl : (K.fields t).lookup key = some j) (hr : read j = .ok a) :
      readField items key read d = .ok a := by
    apply readField_of_lookup _ hr
    rw [hi key hm, if_pos (hkeep key hk), hl]
  have hopt {α : Type} (key : String) {j : Json} {read : Json → Except String α} {a d : α}
      (hm : key ∈ Task.fieldNames) (hl : (K.fields t).lookup key = some j) (hr : read j = .ok a) :
      readField items key read (some d) = .ok (if keep key then a else d) := by
    apply readField_of_ite _ hr
    rw [hi key hm, hl]
  have hstr (s : String) : readStr (.str s) = .ok s := rfl
  unfold validateFields
  rw [hown "task_id" (by decide) (by decide) rfl (hstr t.taskId),
    hown "project_name" (by decide) (by decide) rfl (hstr t.projectName),
    hopt "requirement" (by decide) rfl (hstr t.requirement),
    hopt "work_dir" (by decide) rfl (hstr t.workDir),
    hopt "config_json" (by decide) rfl (hstr t.configJson),
    hopt "mode" (by decide) rfl (readMode_value t.mode),
    hopt "status" (by decide) rfl (readStatus_value t.status),
    hown "created_at" (by decide) (by decide) rfl (hK.datetime_isoformat t.createdAt),
    hown "updated_at" (by decide) (by decide) rfl (hK.datetime_isoformat t.updatedAt),
    hopt "retry_count" (by decide) rfl (count_natCast hK t.retryCount),
    hopt "status_detail" (by decide) rfl (hstr t.statusDetail)]
  rfl

/-- A record of an older or a newer version is read as the task with the defaults of the fields that
it lacks. -/
theorem validate_holds {x : Text} (hK : K.Lawful)
    (hkeep : ∀ key ∈ Task.ownFields, keep key = true) (hx : K.loads x = .ok (.obj items))
    (hi : K.Holds items t keep) : K.modelValidateJson F x = .ok (t.withDefaults keep) := by
  simp only [modelValidateJson, hx, modelValidate, validateFields_holds hK hkeep hi]

theorem fields_keys (K : TaskCodec Text) (t : Task) :
    (K.fields t).map Prod.fst = Task.fieldNames := rfl

theorem fields_plain (K : TaskCodec Text) (t : Task) :
    ∀ f ∈ K.fields t, (∃ s, f.2 = .str s) ∨ ∃ n, f.2 = .int n := by
  simp only [fields, List.forall_mem_cons]
  exact ⟨.inl ⟨_, rfl⟩, .inl ⟨_, rfl⟩, .inl ⟨_, rfl⟩, .inl ⟨_, rfl⟩, .inl ⟨_, rfl⟩, .inl ⟨_, rfl⟩,
    .inl ⟨_, rfl⟩, .inl ⟨_, rfl⟩, .inl ⟨_, rfl⟩, .inr ⟨_, rfl⟩, .inl ⟨_, rfl⟩, nofun⟩

theorem validate_dump (hK : K.Lawful) (F : Fresh) (t : Task) :
    K.modelValidateJson F (K.modelDumpJson t) = .ok t := by
  have hloads : K.loads (K.modelDumpJson t) = .ok (.obj (K.fields t)) :=
    hK.loads_dumps _ (by rw [fields_keys]; decide) (fields_plain K t)
  have hwhole : K.Holds (K.fields t) t fun _ => true := fun _ _ => rfl
  exact validate_holds hK (fun _ _ => rfl) hloads hwhole

/-- The text of a record, which is written and read so. -/
structure Record {K : TaskCodec Text} (hK : K.Lawful) (F : Fresh) where
  text : Text

instance (hK : K.Lawful) (F : Fresh) : TaskJson (Record hK F) where
  modelDumpJson t := ⟨K.modelDumpJson t⟩
  modelValidateJson x := K.modelValidateJson F x.text
  validate_dump := validate_dump hK F

end TaskCodec

section
variable [TaskJson Text] {r r' : Redis Text} {id id' : String} {t : Task}

/-- What the recovery puts into the queue for a task that is not finished. -/
inductive Requeued (t : Task) : Task → Prop where
  | again (hs : t.status ≠ .running) : Requeued t t
  | mended (now : Nat) (hs : t.status = .running) : Requeued t
      (t.transition now .interrupted "crash-recovery: worker lost during execution")

theorem Visit.record_of_ne {o : Option Task} (h : Visit id r r' o) (hk : r.WellKeyed)
    (hne : id' ≠ id) : r'.record id' = r.record id' := by
  cases h with
  | pass => rfl
  | again => rw [Redis.record_lpush]
  | @mend t u now _ h hs hu =>
    have hid : u.taskId = id := by rw [hu, Task.transition_taskId, hk id t h]
    rw [Redis.record_lpush, Redis.record_set_dump, hid, Function.update_of_ne hne]

theorem Visit.requeued {o : Option Task} (h : Visit id r r' o) (ht : r.record id = some t)
    (hl : t.isTerminal = false) : ∃ u ∈ o, Requeued t u := by
  cases h with
  | pass _ h => cases (h t ht).symm.trans hl
  | @again u _ h hl hs =>
    obtain rfl := Option.some.inj (ht.symm.trans h)
    exact ⟨t, rfl, .again hs⟩
  | @mend v u now _ h hs hu =>
    obtain rfl := Option.some.inj (ht.symm.trans h)
    exact ⟨u, rfl, hu ▸ .mended now hs⟩

/-- The first visit to a task finds it as it was. -/
theorem Visits.requeued {ids : List String} {us : List Task} (h : Visits ids r r' us)
    (hk : r.WellKeyed) (hid : id ∈ ids) (ht : r.record id = some t) (hl : t.isTerminal = false) :
    ∃ u ∈ us, Requeued t u := by
  induction h with
  | nil => cases hid
  | @cons r r₁ u ids r₂ us id' h _ ih =>
    by_cases he : id = id'
    · subst he
      obtain ⟨u', hu, hq⟩ := h.requeued ht hl
      exact ⟨u', List.mem_append_right _ (Option.mem_toList.2 hu), hq⟩
    · have hm : id ∈ ids := (List.mem_cons.1 hid).resolve_left he
      obtain ⟨u', hu, hq⟩ := ih (h.swept hk).keyed hm ((h.record_of_ne hk he).trans ht)
      exact ⟨u', List.mem_append_left _ hu, hq⟩

end

theorem Requeued.taskId {t u : Task} (h : Requeued t u) : u.taskId = t.taskId := by
  cases h <;> rfl

/-- A record of an older or a newer version is read with the defaults of the fields that it lacks.
Where its task is not finished, the recovery puts the task back, in the present format. -/
theorem upgrade_law {S : Setup Event} {K : TaskCodec Text} {hK : K.Lawful} {F : Fresh}
    {pages : List (Nat × List ScanKey)} {w w' : World (TaskCodec.Record hK F) Event} {n : Nat}
    {id : String} {x : Text} {items : List (String × Json)} {t : Task} {keep : String → Bool}
    (hr : Recovers S pages w n w') (hk : w.redis.WellKeyed)
    (hrec : w.redis.tasks.lookup id = some ⟨x⟩) (hx : K.loads x = .ok (.obj items))
    (hkeep : ∀ key ∈ Task.ownFields, keep key = true) (hi : K.Holds items t keep) :
    w.redis.record id = some (t.withDefaults keep) ∧
      ((t.withDefaults keep).isTerminal = false → ∃ u, Requeued (t.withDefaults keep) u ∧
        ⟨K.modelDumpJson u⟩ ∈ w'.redis.queue ∧ w'.redis.record id = some u) := by
  have hread : w.redis.record id = some (t.withDefaults keep) := by
    rw [Redis.record, hrec, Option.bind_some, parse_eq_some]
    exact TaskCodec.validate_holds hK hkeep hx hi
  refine ⟨hread, fun hl => ?_⟩
  obtain ⟨hscan, us, hv, -⟩ := recovers_visits hr
  have hid := mem_taskKeys hscan (Redis.mem_keys_of_record hread)
  obtain ⟨u, hu, hq⟩ := hv.requeued hk hid hread hl
  have hs := hv.swept hk
  refine ⟨u, hq, ?_, ?_⟩
  · rw [hs.queue]
    exact List.mem_append_left _ (List.mem_map_of_mem hu)
  · rw [← hk id _ hread, ← hq.taskId]
    exact (hs.stored u hu).1

/-- Dictionaries as texts, and moments as tallies. -/
def plainCodec : TaskCodec Json where
  int := laxInt
  isoformat n := String.ofList (List.replicate n 'I')
  datetime
    | .str s => .ok s.length
    | _ => .error "Input should be a valid datetime"
  render _ := "validation error for Task"
  dumps := id
  loads := .ok

theorem plainCodec_lawful : plainCodec.Lawful where
  int_int _ := rfl
  datetime_isoformat n := by
    simp only [plainCodec, String.length_ofList, List.length_replicate]
  loads_dumps _ _ _ := rfl

/-- A record of a running task from before there were a directory and a configuration, with a key
that no version here knows. -/
def strandedItems : List (String × Json) := [
  ("priority", .int 1),
  ("task_id", .str "u"),
  ("project_name", .str "p"),
  ("requirement", .str "r"),
  ("mode", .str "new"),
  ("status", .str "running"),
  ("created_at", .str "I"),
  ("updated_at", .str "II"),
  ("retry_count", .int 0),
  ("status_detail", .str "mode=new")]

def strandedTask : Task where
  taskId := "u"
  projectName := "p"
  requirement := "r"
  mode := .new
  status := .running
  createdAt := 1
  updatedAt := 2
  statusDetail := "mode=new"

def beforeEngineConfig (key : String) : Bool := key ≠ "work_dir" && key ≠ "config_json"

theorem beforeEngineConfig_keeps : ∀ key ∈ Task.ownFields, beforeEngineConfig key = true := by
  decide

theorem strandedItems_holds : plainCodec.Holds strandedItems strandedTask beforeEngineConfig := by
  simp only [TaskCodec.Holds, Task.fieldNames, List.forall_mem_cons]
  exact ⟨rfl, rfl, rfl, rfl, rfl, rfl, rfl, rfl, rfl, rfl, rfl, nofun⟩

def noFresh : Fresh := ⟨"", 0, 0⟩

/-- A Redis with this record alone. -/
def strandedWorld : World (TaskCodec.Record plainCodec_lawful noFresh) String :=
  World.init.onRedis (·.set "u" ⟨.obj strandedItems⟩)

theorem strandedWorld_lookup : strandedWorld.redis.tasks.lookup "u" = some ⟨.obj strandedItems⟩ :=
  AList.lookup_insert ..

theorem strandedWorld_wellKeyed : strandedWorld.redis.WellKeyed := by
  intro id t ht
  by_cases hid : id = "u"
  · subst hid
    rw [Redis.record, strandedWorld_lookup, Option.bind_some, parse_eq_some] at ht
    have hread := TaskCodec.validate_holds (F := noFresh) plainCodec_lawful
      beforeEngineConfig_keeps (show plainCodec.loads (.obj strandedItems) = _ from rfl)
      strandedItems_holds
    obtain rfl := Except.ok.inj (ht.symm.trans hread)
    rfl
  · have hnone : strandedWorld.redis.tasks.lookup id = none :=
      (AList.lookup_insert_ne hid).trans rfl
    rw [Redis.record, hnone] at ht
    cases ht

theorem upgrade_law_stranded : ∃ n w',
    Recovers demo [(0, strandedWorld.redis.tasks.keys.map .task)] strandedWorld n w' ∧
    ∃ u, u.taskId = "u" ∧ u.status = .interrupted ∧ u.workDir = "" ∧
      ⟨plainCodec.modelDumpJson u⟩ ∈ w'.redis.queue := by
  obtain ⟨n, w', hr⟩ := exists_recovers (S := demo) (completeScan_keys strandedWorld.redis)
  obtain ⟨-, hq⟩ := upgrade_law hr strandedWorld_wellKeyed strandedWorld_lookup rfl
    beforeEngineConfig_keeps strandedItems_holds
  obtain ⟨u, hu, hm, -⟩ := hq rfl
  refine ⟨n, w', hr, u, ?_⟩
  cases hu with
  | again hs => exact absurd rfl hs
  | mended now hs => exact ⟨rfl, rfl, rfl, hm⟩

end Orchestrator
