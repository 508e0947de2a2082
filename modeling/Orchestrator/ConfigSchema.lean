import Orchestrator.Python.Lax

namespace Orchestrator
open Python
set_option autoImplicit true

/-- Optional fields of one type. -/
def optionals (c : Check) (names : List String) : List (String × Check) :=
  names.map fun name => (name, c.optional)

def modelsSchema : Check := .model "_ModelsSchema" (optionals .str [
  "cio_naming_model", "cio_decision_model", "cio_executor_model", "architect_model",
  "engineer_model", "documenter_model"])

/-- Runs ahead of the type check, on whatever value there is. -/
def coverageRange (P : Pydantic) : Json → Except PyError Unit
  | .null => .ok ()
  | v => do
    let n ← toInt P.repr v
    if 0 ≤ n ∧ n ≤ 100 then .ok ()
    else .error ⟨.valueError, "target_coverage must be between 0 and 100"⟩

def validationSchema (P : Pydantic) : Check := .model "_ValidationSchema" [
  ("validate_after_run", (Check.bool P).optional),
  ("max_fix_rounds", (Check.int P).optional),
  ("model", Check.str.optional),
  ("step_filter", (Check.list .str).optional),
  ("stdout_preview_limit", (Check.int P).optional),
  ("target_coverage", .before (coverageRange P) (Check.int P).optional)]

def claudeMdSchema (P : Pydantic) : Check := .model "_ClaudeMdSchema" [
  ("enabled", (Check.bool P).optional),
  ("model", Check.str.optional),
  ("memory_model", Check.str.optional)]

def gitUserSchema : Check := .model "_GitUserSchema" (optionals .str ["name", "email"])

def gitLabSchema : Check :=
  .model "_GitLabSchema" (optionals .str ["token", "base_url", "namespace", "branch"])

def validPushStrategies : List String := ["never", "on_complete", "on_phase", "manual"]

def validBranchStrategies : List String := ["feature_branch", "direct_main"]

/-- A value has to be one of a set of words. Runs ahead of the type check, too. -/
def oneOf (words : List String) (msg : String) : Json → Except PyError Unit
  | .null => .ok ()
  | v => do
    let known ← inWords words v
    if known then .ok () else .error ⟨.valueError, msg⟩

def pushStrategyEnum : Json → Except PyError Unit := oneOf validPushStrategies
  "push_strategy must be one of ['manual', 'never', 'on_complete', 'on_phase']"

def branchStrategyEnum : Json → Except PyError Unit := oneOf validBranchStrategies
  "branch_strategy must be one of ['direct_main', 'feature_branch']"

def gitSchema (P : Pydantic) : Check := .model "_GitSchema" [
  ("enabled", (Check.bool P).optional),
  ("user", gitUserSchema.optional),
  ("gitlab", gitLabSchema.optional),
  ("push_strategy", .before pushStrategyEnum Check.str.optional),
  ("branch_strategy", .before branchStrategyEnum Check.str.optional),
  ("feature_branch_prefix", Check.str.optional),
  ("init_on_new_project", (Check.bool P).optional),
  ("commit_on_phase", (Check.bool P).optional),
  ("tag_on_validate", (Check.bool P).optional),
  ("gitignore_cio_logs", (Check.bool P).optional)]

def configFields (P : Pydantic) : List (String × Check) := [
  ("model", Check.str.optional),
  ("api_key", Check.str.optional),
  ("llm_url", Check.str.optional),
  ("work_dir", Check.str.optional),
  ("file_limit", (Check.int P).optional),
  ("architect_prompt", Check.str.optional),
  ("engineer_prompt", Check.str.optional),
  ("claude_alias", Check.str.optional),
  ("cio_prompts", Check.dict.optional),
  ("execution_context_max_turns", (Check.int P).optional),
  ("execution_context_content_limit", (Check.int P).optional),
  ("models", modelsSchema.optional),
  ("validation", (validationSchema P).optional),
  ("claude_md", (claudeMdSchema P).optional),
  ("git", (gitSchema P).optional)]

def configJsonSchema (P : Pydantic) : Check := .model "ConfigJsonSchema" (configFields P)

/-- One line of the message of `validate_config_json`. -/
def issueLine (issue : Issue) : String :=
  "  • " ++ (if issue.loc = [] then "(root)" else " → ".intercalate issue.loc) ++ ": " ++ issue.msg

/-- What `json.loads` raises: a `JSONDecodeError`, or the plain `ValueError` of an integer with too
many digits. -/
inductive LoadsError where
  | decode (msg : String)
  | digits (msg : String)

abbrev Loads : Type := String → Except LoadsError Json

/-- A text that is not the JSON of an object, or that the schema rejects, is a `ValueError`. Any
other exception comes out of a validator. -/
def validateConfigJson (P : Pydantic) (loads : Loads) (configJson : String) : Except PyError Unit :=
  match loads configJson with
  | .error (.decode msg) => .error ⟨.valueError, "config_json is not valid JSON: " ++ msg⟩
  | .error (.digits msg) => .error ⟨.valueError, msg⟩
  | .ok (.obj items) => match configJsonSchema P (.obj items) with
    | .ok [] => .ok ()
    | .ok issues => .error ⟨.valueError,
        "config_json failed schema validation:\n" ++ "\n".intercalate (issues.map issueLine)⟩
    | .error e => .error e
  | .ok _ =>
    .error ⟨.valueError, "config_json must be a JSON object (dict), not a list or scalar"⟩

/-- The validator of `TaskCreateRequest`: a blank text counts as none. -/
def validateRequest (P : Pydantic) (loads : Loads) (configJson : Option String) :
    Except PyError Unit :=
  let raw := strip (configJson.getD "")
  if raw = "" then .ok () else validateConfigJson P loads raw

/-- `int` cannot be asked for the value of this. -/
def Unreadable (v : Json) : Prop :=
  (∃ items, v = .arr items) ∨ (∃ items, v = .obj items) ∨ ∃ negative, v = .float (.inf negative)

/-- This cannot be looked up in a set. -/
def Unhashable (v : Json) : Prop := (∃ items, v = .arr items) ∨ ∃ items, v = .obj items

/-- A validator that runs ahead of the type check gets a value that it cannot work on. -/
def Upsets (items : List (String × Json)) : Prop :=
  (∃ validation v, items.lookup "validation" = some (.obj validation) ∧
    validation.lookup "target_coverage" = some v ∧ Unreadable v) ∨
  ∃ git v, items.lookup "git" = some (.obj git) ∧ (git.lookup "push_strategy" = some v ∨
    git.lookup "branch_strategy" = some v) ∧ Unhashable v

section
variable {P : Pydantic} {loads : Loads} {v : Json} {e : PyError}

/-- `toInt` raises something else than a `ValueError` just for an unreadable value. -/
theorem toInt_raises {repr : String → String} (hv : v ≠ .null) :
    (∃ e, toInt repr v = .error e ∧ e.cls ≠ .valueError) ↔ Unreadable v := by
  cases v with
  | null => exact absurd rfl hv
  | str s =>
    cases h : intOfString s <;> simp [Unreadable, toInt, h]
  | float x =>
    cases x <;> simp [Unreadable, toInt]
  | _ => simp [Unreadable, toInt]

theorem coverageRange_eq (hv : v ≠ .null) : coverageRange P v = (toInt P.repr v).bind fun n =>
    if 0 ≤ n ∧ n ≤ 100 then .ok ()
    else .error ⟨.valueError, "target_coverage must be between 0 and 100"⟩ := by
  cases v with
  | null => exact absurd rfl hv
  | _ => rfl

theorem coverageRange_raises :
    (∃ e, coverageRange P v = .error e ∧ e.cls ≠ .valueError) ↔ Unreadable v := by
  by_cases hv : v = .null
  · subst hv
    simp [coverageRange, Unreadable]
  · rw [← toInt_raises hv, coverageRange_eq hv]
    cases toInt P.repr v with
    | error e => simp [Except.bind]
    | ok n =>
      simp only [Except.bind]
      split <;> simp

theorem oneOf_raises {words : List String} {msg : String} :
    (∃ e, oneOf words msg v = .error e ∧ e.cls ≠ .valueError) ↔ Unhashable v := by
  cases v with
  | str s =>
    cases h : words.contains s <;> simp_all [Unhashable, oneOf, inWords, bind, Except.bind]
  | _ => simp [Unhashable, oneOf, inWords, bind, Except.bind]

theorem raises_validation : (validationSchema P).Raises v ↔
    ∃ items x, v = .obj items ∧ items.lookup "target_coverage" = some x ∧ Unreadable x := by
  simp [validationSchema, Check.raises_model, Check.raises_before, coverageRange_raises]

theorem raises_git : (gitSchema P).Raises v ↔ ∃ items x, v = .obj items ∧
    (items.lookup "push_strategy" = some x ∨ items.lookup "branch_strategy" = some x) ∧
    Unhashable x := by
  simp [gitSchema, Check.raises_model, Check.raises_before, oneOf_raises, pushStrategyEnum,
    branchStrategyEnum, gitUserSchema, gitLabSchema, optionals, or_and_right, exists_or]

theorem raises_config {items : List (String × Json)} :
    (configJsonSchema P).Raises (.obj items) ↔ Upsets items := by
  simp [configJsonSchema, configFields, Check.raises_model, raises_validation, raises_git, Upsets,
    modelsSchema, claudeMdSchema, optionals]

theorem foreign_config : (configJsonSchema P).Foreign := by
  have hoptionals (names : List String) : ∀ f ∈ optionals .str names, f.2.Foreign := by
    intro f hf
    obtain ⟨name, _, rfl⟩ := List.mem_map.1 hf
    exact Check.foreign_optional Check.foreign_str
  have hmodels : modelsSchema.Foreign := Check.foreign_model (hoptionals _)
  have huser : gitUserSchema.Foreign := Check.foreign_model (hoptionals _)
  have hgitlab : gitLabSchema.Foreign := Check.foreign_model (hoptionals _)
  have hvalidation : (validationSchema P).Foreign := Check.foreign_model (by simp)
  have hclaude : (claudeMdSchema P).Foreign := Check.foreign_model (by simp)
  have hgit : (gitSchema P).Foreign := Check.foreign_model (by simp [huser, hgitlab])
  exact Check.foreign_model (by simp [configFields, hmodels, hvalidation, hclaude, hgit])

theorem accepts_iff {s : String} : validateConfigJson P loads s = .ok () ↔
    ∃ v, loads s = .ok v ∧ (configJsonSchema P).Passes v := by
  unfold validateConfigJson
  cases loads s with
  | error e => cases e <;> simp
  | ok v =>
    cases v with
    | obj items =>
      simp only [Except.ok.injEq, exists_eq_left', Check.Passes]
      cases configJsonSchema P (.obj items) with
      | error e => simp
      | ok issues => cases issues <;> simp
    | _ => simp [configJsonSchema, Check.passes_model]

theorem validate_error_iff {s : String} :
    (∃ e, validateConfigJson P loads s = .error e ∧ e.cls ≠ .valueError) ↔
      ∃ items, loads s = .ok (.obj items) ∧ Upsets items := by
  unfold validateConfigJson
  cases loads s with
  | error e => cases e <;> simp
  | ok j =>
    cases j with
    | obj items =>
      simp only [Except.ok.injEq, Json.obj.injEq, exists_eq_left', ← raises_config (P := P)]
      cases hc : configJsonSchema P (.obj items) with
      | error e => simpa [Check.Raises, hc] using foreign_config _ _ hc
      | ok issues => cases issues <;> simp [Check.Raises, hc]
    | _ => simp

/-- A validation ends in acceptance or in a `ValueError`, unless a validator that runs ahead of the
type check gets a value that it cannot work on. -/
theorem validate_law (P : Pydantic) (loads : Loads) :
    (∀ s, (∀ e, validateConfigJson P loads s = .error e → e.cls = .valueError) ↔
      ¬∃ items, loads s = .ok (.obj items) ∧ Upsets items) ∧
    ∀ configJson, (∀ e, validateRequest P loads configJson = .error e → e.cls = .valueError) ↔
      ¬∃ items, strip (configJson.getD "") ≠ "" ∧
        loads (strip (configJson.getD "")) = .ok (.obj items) ∧ Upsets items := by
  have hlaw (s : String) : (∀ e, validateConfigJson P loads s = .error e → e.cls = .valueError) ↔
      ¬∃ items, loads s = .ok (.obj items) ∧ Upsets items := by
    rw [← validate_error_iff (P := P)]
    simp
  refine ⟨hlaw, fun configJson => ?_⟩
  unfold validateRequest
  dsimp only
  split
  · rename_i h
    simp [h]
  · rename_i h
    rw [hlaw]
    simp [h]

end

/-- `json.loads` on the texts of a table. -/
def tableLoads (table : List (String × Json)) : Loads := fun s => match table.lookup s with
  | some j => .ok j
  | none => .error (.decode "Expecting value: line 1 column 1 (char 0)")

def infiniteText : String := "\x7b\"validation\": \x7b\"target_coverage\": Infinity\x7d\x7d"

def infiniteCoverage : Json :=
  .obj [("validation", .obj [("target_coverage", .float (.inf false))])]

theorem not_validate_law : ¬∀ e, validateConfigJson laxPydantic
    (tableLoads [(infiniteText, infiniteCoverage)]) infiniteText = .error e →
      e.cls = .valueError := by
  intro h
  have hraises : validateConfigJson laxPydantic (tableLoads [(infiniteText, infiniteCoverage)])
      infiniteText = .error ⟨.overflowError, "cannot convert float infinity to integer"⟩ := by rfl
  cases h _ hraises

end Orchestrator
