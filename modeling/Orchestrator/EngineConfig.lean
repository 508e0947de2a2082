import Orchestrator.ConfigSchema

namespace Orchestrator
open Python
set_option autoImplicit true

/-- The settings that the engine factory reads. -/
structure EngineSettings where
  cioApiKey : String
  cioModel : String
  cioLlmUrl : String
  cioWorkDir : String
  cioConfigPath : String

/-- The settings as a configuration of the engine. -/
def envConfig (settings : EngineSettings) (workDir : String) : List (String × Json) := [
  ("model", .str settings.cioModel),
  ("api_key", .str settings.cioApiKey),
  ("llm_url", .str settings.cioLlmUrl),
  ("work_dir", .str workDir),
  ("file_limit", .int 20)]

def typeName : Json → String
  | .null => "NoneType"
  | .bool _ => "bool"
  | .int _ => "int"
  | .float _ => "float"
  | .str _ => "str"
  | .arr _ => "list"
  | .obj _ => "dict"

/-- `(v or "").strip()`. -/
def stripOrEmpty (v : Json) : Except PyError String := match v.or (.str "") with
  | .str s => .ok (strip s)
  | v => .error ⟨.attributeError, "'" ++ typeName v ++ "' object has no attribute 'strip'"⟩

def fieldError (name env : String) : String :=
  name ++ ": value is empty in config_json and " ++ env ++ " env var is not set"

def missingError (errors : List String) : PyError := ⟨.valueError,
  "config_json cannot be used — required fields missing after env-var fallback:\n" ++
    "\n".intercalate (errors.map ("  • " ++ ·))⟩

/-- The values of the caller come first, except for the directory, which is decided beforehand. -/
def mergeWithEnvDefaults (settings : EngineSettings) (parsed : List (String × Json))
    (resolvedWorkDir : String) : Except PyError (List (String × Json)) := do
  let merged := dictSet "work_dir" (.str resolvedWorkDir)
    (dictUpdate (envConfig settings resolvedWorkDir) parsed)
  let model ← stripOrEmpty (dictGet merged "model" .null)
  let merged := dictSet "model" (.str model) merged
  let apiKey ← stripOrEmpty (dictGet merged "api_key" .null)
  let merged := dictSet "api_key" (.str apiKey) merged
  let errors := (if model = "" then [fieldError "model" "CIO_MODEL"] else []) ++
    if apiKey = "" then [fieldError "api_key" "CIO_API_KEY"] else []
  if errors = [] then .ok merged else .error (missingError errors)

/-- The dictionary that the configuration of a request gives to the engine. -/
def requestDict (loads : Loads) (settings : EngineSettings) (resolvedWorkDir configJson : String) :
    Except PyError (List (String × Json)) :=
  match loads configJson with
  | .error (.decode msg) => .error ⟨.valueError, msg⟩
  | .error (.digits msg) => .error ⟨.valueError, msg⟩
  | .ok (.obj parsed) => mergeWithEnvDefaults settings parsed resolvedWorkDir
  | .ok v => .error ⟨.typeError, "'" ++ typeName v ++ "' object is not a mapping"⟩

def textOf : Option Json → String
  | some (.str s) => s
  | _ => ""

/-- The value of the caller unless it is blank, and that of the environment otherwise. -/
def chosen (items : List (String × Json)) (name env : String) : String :=
  if strip (textOf (items.lookup name)) = "" then strip env
  else strip (textOf (items.lookup name))

/-- The caller names the field without giving it a value. -/
def Blanked (items : List (String × Json)) (name : String) : Prop :=
  ∃ v, items.lookup name = some v ∧ strip (textOf (some v)) = ""

/-- One of the two required fields is blank in both places. -/
def Missing (settings : EngineSettings) (items : List (String × Json)) : Prop :=
  chosen items "model" settings.cioModel = "" ∨ chosen items "api_key" settings.cioApiKey = ""

/-- What a merge is to give. -/
def Merges (settings : EngineSettings) (items : List (String × Json)) :
    Except PyError (List (String × Json)) → Prop
  | .ok merged => ¬Missing settings items ∧
    merged.lookup "model" = some (.str (chosen items "model" settings.cioModel)) ∧
    merged.lookup "api_key" = some (.str (chosen items "api_key" settings.cioApiKey)) ∧
    ∀ key v, key ∉ ["model", "api_key", "work_dir"] → items.lookup key = some v →
      merged.lookup key = some v
  | .error e => Missing settings items ∧ ∃ errors, e = missingError errors

/-- What the code makes of a field. -/
def effective (items : List (String × Json)) (name env : String) : String :=
  if items.lookup name = none then strip env else strip (textOf (items.lookup name))

/-- No value, or a string. -/
def Textual (items : List (String × Json)) (name : String) : Prop :=
  ∀ v, items.lookup name = some v → v = .null ∨ ∃ s, v = .str s

section
variable {settings : EngineSettings} {items merged : List (String × Json)}
  {workDir name env : String}

theorem strip_empty : strip "" = "" := by decide

theorem effective_eq_chosen (h : ¬Blanked items name) :
    effective items name env = chosen items name env := by
  unfold effective chosen
  cases hv : items.lookup name with
  | none => simp [textOf, strip_empty]
  | some v =>
    have hne : strip (textOf (some v)) ≠ "" := fun hs => h ⟨v, hv, hs⟩
    rw [if_neg (Option.some_ne_none v), if_neg hne]

theorem effective_of_blanked (h : Blanked items name) : effective items name env = "" := by
  obtain ⟨v, hv, hs⟩ := h
  rw [effective, hv, if_neg (Option.some_ne_none v), hs]

theorem stripOrEmpty_eq {v : Json} (h : v = .null ∨ ∃ s, v = .str s) :
    stripOrEmpty v = .ok (strip (textOf (some v))) := by
  obtain rfl | ⟨s, rfl⟩ := h
  · rfl
  · by_cases hs : s = ""
    · subst hs
      rfl
    · rw [stripOrEmpty, Json.or, if_pos (by simp [Json.truthy, hs])]
      rfl

/-- A field of the merged dictionary, before it is stripped. -/
theorem stripOrEmpty_field {fields : List (String × Json)} (h : Textual items name)
    (hfield : fields.lookup name = (items.lookup name).or (some (.str env))) :
    stripOrEmpty (dictGet fields name .null) = .ok (effective items name env) := by
  rw [dictGet, hfield, effective]
  cases hv : items.lookup name with
  | none =>
    rw [if_pos rfl]
    exact stripOrEmpty_eq (.inr ⟨env, rfl⟩)
  | some v =>
    rw [if_neg (Option.some_ne_none v)]
    exact stripOrEmpty_eq (h v hv)

/-- The merged dictionary. -/
def mergedFields (settings : EngineSettings) (items : List (String × Json)) (workDir : String) :
    List (String × Json) :=
  dictSet "api_key" (.str (effective items "api_key" settings.cioApiKey))
    (dictSet "model" (.str (effective items "model" settings.cioModel))
      (dictSet "work_dir" (.str workDir) (dictUpdate (envConfig settings workDir) items)))

theorem merge_eq (settings : EngineSettings) (workDir : String) (hmodel : Textual items "model")
    (hkey : Textual items "api_key") :
    (effective items "model" settings.cioModel ≠ "" ∧
        effective items "api_key" settings.cioApiKey ≠ "" ∧
        mergeWithEnvDefaults settings items workDir = .ok (mergedFields settings items workDir)) ∨
      ((effective items "model" settings.cioModel = "" ∨
          effective items "api_key" settings.cioApiKey = "") ∧
        ∃ errors, mergeWithEnvDefaults settings items workDir = .error (missingError errors)) := by
  have hmodel : stripOrEmpty (dictGet (dictSet "work_dir" (.str workDir)
      (dictUpdate (envConfig settings workDir) items)) "model" .null) =
        .ok (effective items "model" settings.cioModel) :=
    stripOrEmpty_field hmodel (by
      rw [lookup_dictSet, if_neg (by decide), lookup_dictUpdate]
      rfl)
  have hkey : stripOrEmpty (dictGet (dictSet "model"
      (.str (effective items "model" settings.cioModel)) (dictSet "work_dir" (.str workDir)
        (dictUpdate (envConfig settings workDir) items))) "api_key" .null) =
          .ok (effective items "api_key" settings.cioApiKey) :=
    stripOrEmpty_field hkey (by
      rw [lookup_dictSet, if_neg (by decide), lookup_dictSet, if_neg (by decide),
        lookup_dictUpdate]
      rfl)
  unfold mergeWithEnvDefaults
  dsimp only
  rw [hmodel]
  simp only [bind, Except.bind]
  rw [hkey]
  dsimp only
  by_cases hm : effective items "model" settings.cioModel = ""
  · right
    rw [if_pos hm, if_neg (by simp)]
    exact ⟨.inl hm, _, rfl⟩
  · by_cases hk : effective items "api_key" settings.cioApiKey = ""
    · right
      rw [if_pos hk, if_neg (by simp)]
      exact ⟨.inr hk, _, rfl⟩
    · left
      rw [if_neg hm, if_neg hk]
      exact ⟨hm, hk, rfl⟩

theorem lookup_merged (key : String) : (mergedFields settings items workDir).lookup key =
    if key = "api_key" then some (.str (effective items "api_key" settings.cioApiKey))
    else if key = "model" then some (.str (effective items "model" settings.cioModel))
    else if key = "work_dir" then some (.str workDir)
    else (items.lookup key).or ((envConfig settings workDir).lookup key) := by
  rw [mergedFields, lookup_dictSet, lookup_dictSet, lookup_dictSet, lookup_dictUpdate]

theorem textual_of_accepts {P : Pydantic} {loads : Loads} {s : String}
    (h : validateConfigJson P loads s = .ok ()) (hitems : loads s = .ok (.obj items)) :
    Textual items "model" ∧ Textual items "api_key" ∧ Textual items "work_dir" := by
  obtain ⟨v, hv, hpasses⟩ := accepts_iff.1 h
  obtain rfl := Except.ok.inj (hitems.symm.trans hv)
  obtain ⟨fields, heq, hfields⟩ := Check.passes_model.1 hpasses
  obtain rfl := Json.obj.inj heq
  have hstr {name : String} (hf : (name, Check.str.optional) ∈ configFields P) :
      Textual items name := by
    intro v hv
    have hp := hfields _ hf v hv
    rwa [Check.passes_optional, Check.passes_str] at hp
  exact ⟨hstr (by simp [configFields]), hstr (by simp [configFields]),
    hstr (by simp [configFields])⟩

/-- The merge is right just when a required field is blank in both places, or the caller gives each
of the two a value or leaves it out. -/
theorem merge_law (P : Pydantic) (loads : Loads) (settings : EngineSettings) (s workDir : String)
    (items : List (String × Json)) (h : validateConfigJson P loads s = .ok ())
    (hitems : loads s = .ok (.obj items)) :
    Merges settings items (mergeWithEnvDefaults settings items workDir) ↔
      Missing settings items ∨ ¬Blanked items "model" ∧ ¬Blanked items "api_key" := by
  obtain ⟨hmodel, hkey, _⟩ := textual_of_accepts h hitems
  obtain ⟨hm, hk, hmerge⟩ | ⟨hblank, errors, hmerge⟩ := merge_eq settings workDir hmodel hkey
  · rw [hmerge]
    have hmodel' : ¬Blanked items "model" := fun hb => hm (effective_of_blanked hb)
    have hkey' : ¬Blanked items "api_key" := fun hb => hk (effective_of_blanked hb)
    rw [effective_eq_chosen hmodel'] at hm
    rw [effective_eq_chosen hkey'] at hk
    refine iff_of_true ⟨?_, ?_, ?_, ?_⟩ (.inr ⟨hmodel', hkey'⟩)
    · rintro (h | h)
      exacts [hm h, hk h]
    · rw [lookup_merged, if_neg (by decide), if_pos rfl, effective_eq_chosen hmodel']
    · rw [lookup_merged, if_pos rfl, effective_eq_chosen hkey']
    · intro key v hkey hv
      simp only [List.mem_cons, List.not_mem_nil, or_false, not_or] at hkey
      rw [lookup_merged, if_neg hkey.2.1, if_neg hkey.1, if_neg hkey.2.2, hv, Option.some_or]
  · rw [hmerge]
    constructor
    · rintro ⟨hmissing, _⟩
      exact .inl hmissing
    · rintro (hmissing | ⟨hmodel', hkey'⟩)
      · exact ⟨hmissing, errors, rfl⟩
      · rw [effective_eq_chosen hmodel', effective_eq_chosen hkey'] at hblank
        exact ⟨hblank, errors, rfl⟩

end

def someSettings : EngineSettings where
  cioApiKey := "sk-env"
  cioModel := "GPT-4.1"
  cioLlmUrl := "https://api.poe.com"
  cioWorkDir := "./workspace/solutions"
  cioConfigPath := ""

def ownModel : Loads :=
  tableLoads [("\x7b\"model\": \" m \"\x7d", .obj [("model", .str " m ")])]

def nullModel : Loads := tableLoads [("\x7b\"model\": null\x7d", .obj [("model", .null)])]

theorem merge_law_own : Merges someSettings [("model", .str " m ")]
    (mergeWithEnvDefaults someSettings [("model", .str " m ")] "w") := by
  refine (merge_law laxPydantic ownModel someSettings "\x7b\"model\": \" m \"\x7d" "w" _ rfl
    rfl).2 (.inr ⟨?_, ?_⟩)
  · rintro ⟨v, hv, hs⟩
    cases hv
    revert hs
    decide
  · rintro ⟨v, hv, _⟩
    cases hv

theorem not_merge_law :
    validateConfigJson laxPydantic nullModel "\x7b\"model\": null\x7d" = .ok () ∧
    nullModel "\x7b\"model\": null\x7d" = .ok (.obj [("model", .null)]) ∧
    ¬Merges someSettings [("model", .null)]
      (mergeWithEnvDefaults someSettings [("model", .null)] "w") := by
  refine ⟨rfl, rfl, ?_⟩
  have hmerge : mergeWithEnvDefaults someSettings [("model", .null)] "w" =
      .error (missingError [fieldError "model" "CIO_MODEL"]) := by rfl
  rw [hmerge]
  rintro ⟨h | h, _⟩
  · revert h
    decide
  · revert h
    decide

end Orchestrator
