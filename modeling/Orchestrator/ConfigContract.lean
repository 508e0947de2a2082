import Mathlib.Data.List.Forall2
import Orchestrator.ConfigSchema

namespace Orchestrator
open Python
set_option autoImplicit true

/-- The types of the documentation. An object with known fields requires none of them. -/
inductive DocType where
  | string
  | strings
  | integer
  | natural
  | percent
  | boolean
  | object
  | word (words : List String)
  | fields (fields : List (String × DocType))

def docModels : List (String × DocType) := [
  ("cio_naming_model", .string), ("cio_decision_model", .string),
  ("cio_executor_model", .string), ("architect_model", .string), ("engineer_model", .string),
  ("documenter_model", .string)]

def docValidation : List (String × DocType) := [
  ("validate_after_run", .boolean), ("max_fix_rounds", .natural), ("model", .string),
  ("step_filter", .strings), ("stdout_preview_limit", .natural), ("target_coverage", .percent)]

def docClaudeMd : List (String × DocType) := [
  ("enabled", .boolean), ("model", .string), ("memory_model", .string)]

def docGitUser : List (String × DocType) := [("name", .string), ("email", .string)]

def docGitLab : List (String × DocType) := [
  ("token", .string), ("base_url", .string), ("namespace", .string), ("branch", .string)]

def docGit : List (String × DocType) := [
  ("enabled", .boolean), ("user", .fields docGitUser), ("gitlab", .fields docGitLab),
  ("push_strategy", .word ["never", "on_complete", "on_phase", "manual"]),
  ("branch_strategy", .word ["feature_branch", "direct_main"]),
  ("feature_branch_prefix", .string), ("init_on_new_project", .boolean),
  ("commit_on_phase", .boolean), ("tag_on_validate", .boolean), ("gitignore_cio_logs", .boolean)]

/-- The table of `config_json`. -/
def docConfig : List (String × DocType) := [
  ("model", .string), ("api_key", .string), ("llm_url", .string), ("work_dir", .string),
  ("file_limit", .integer), ("architect_prompt", .string), ("engineer_prompt", .string),
  ("claude_alias", .string), ("cio_prompts", .object), ("execution_context_max_turns", .integer),
  ("execution_context_content_limit", .integer), ("models", .fields docModels),
  ("validation", .fields docValidation), ("claude_md", .fields docClaudeMd),
  ("git", .fields docGit)]

/-- What the types mean. -/
structure Reading where
  string : Json → Prop
  strings : Json → Prop
  integer : Json → Prop
  natural : Json → Prop
  percent : Json → Prop
  boolean : Json → Prop
  object : Json → Prop
  word : List String → Json → Prop

namespace Reading

def isString (v : Json) : Prop := ∃ s, v = .str s

def isStrings (v : Json) : Prop := ∃ items, v = .arr items ∧ ∀ x ∈ items, isString x

def isObject (v : Json) : Prop := ∃ items, v = .obj items

def isWord (words : List String) (v : Json) : Prop := ∃ s ∈ words, v = .str s

def isInteger (v : Json) : Prop := ∃ n, v = .int n

def isBoolean (v : Json) : Prop := ∃ b, v = .bool b

/-- The types of JSON. -/
def strict : Reading where
  string := isString
  strings := isStrings
  integer := isInteger
  natural := isInteger
  percent := isInteger
  boolean := isBoolean
  object := isObject
  word := isWord

/-- A scalar counts as an integer or as a boolean when pydantic converts it. The ranges are those of
the column of constraints. -/
def lax (P : Pydantic) : Reading where
  string := isString
  strings := isStrings
  integer v := ∃ n, P.int v = .ok n
  natural v := ∃ n, P.int v = .ok n ∧ 0 ≤ n
  percent v := ∃ n, P.int v = .ok n ∧ 0 ≤ n ∧ n ≤ 100
  boolean v := ∃ b, P.bool v = .ok b
  object := isObject
  word := isWord

/-- The documented types without the two lower bounds. -/
def unbounded (P : Pydantic) : Reading := { lax P with natural := (lax P).integer }

/-- What is left of the constraints in the code: the range of what `int` makes of a value. -/
def checked (P : Pydantic) : Reading :=
  { unbounded P with percent := fun v => (lax P).integer v ∧ coverageRange P v = .ok () }

/-- Only integers and booleans are told from other values. -/
def scalars : Reading where
  string _ := True
  strings _ := True
  integer := isInteger
  natural := isInteger
  percent := isInteger
  boolean := isBoolean
  object _ := True
  word _ _ := True

end Reading

mutual

def DocType.Holds (T : Reading) : DocType → Json → Prop
  | .string, v => T.string v
  | .strings, v => T.strings v
  | .integer, v => T.integer v
  | .natural, v => T.natural v
  | .percent, v => T.percent v
  | .boolean, v => T.boolean v
  | .object, v => T.object v
  | .word words, v => T.word words v
  | .fields fields, v => ∃ items, v = .obj items ∧ HoldFields T fields items

/-- The fields that are present and not `null` are of their types. -/
def HoldFields (T : Reading) : List (String × DocType) → List (String × Json) → Prop
  | [], _ => True
  | (name, d) :: fields, items => (∀ x, items.lookup name = some x → x ≠ .null → d.Holds T x) ∧
    HoldFields T fields items

end

/-- The value is an object that the table admits. -/
def Documented (T : Reading) (v : Json) : Prop := (DocType.fields docConfig).Holds T v

/-- A check that agrees with a documented type, `null` aside. -/
def Meets (c : Check) (d : Json → Prop) : Prop := ∀ v, c.Passes v ↔ (v ≠ .null → d v)

section
variable {P : Pydantic} {c : Check} {d : Json → Prop} {v : Json}

theorem meets_optional (h : ∀ v, c.Passes v ↔ d v) : Meets c.optional d := by
  intro v
  rw [Check.passes_optional, h, or_iff_not_imp_left]

theorem passes_model_iff {T : Reading} {name : String} {fields : List (String × Check)}
    {docs : List (String × DocType)}
    (h : fields.Forall₂ (fun f g => f.1 = g.1 ∧ Meets f.2 (g.2.Holds T)) docs) (v : Json) :
    (Check.model name fields).Passes v ↔ (DocType.fields docs).Holds T v := by
  rw [Check.passes_model]
  apply exists_congr
  intro items
  apply and_congr_right
  rintro rfl
  induction h with
  | nil => simp [HoldFields]
  | cons hfg _ ih =>
    simp only [List.forall_mem_cons, ih, hfg.1, hfg.2 _, HoldFields]

theorem meets_str : Meets Check.str.optional (DocType.string.Holds (.checked P)) :=
  meets_optional fun _ => Check.passes_str

theorem meets_strs : Meets (Check.list .str).optional (DocType.strings.Holds (.checked P)) := by
  apply meets_optional
  intro v
  rw [Check.passes_list]
  simp only [Check.passes_str]
  rfl

theorem meets_int : Meets (Check.int P).optional (DocType.integer.Holds (.checked P)) :=
  meets_optional fun _ => Check.passes_int

theorem meets_natural : Meets (Check.int P).optional (DocType.natural.Holds (.checked P)) :=
  meets_int

theorem meets_bool : Meets (Check.bool P).optional (DocType.boolean.Holds (.checked P)) :=
  meets_optional fun _ => Check.passes_bool

theorem meets_dict : Meets Check.dict.optional (DocType.object.Holds (.checked P)) :=
  meets_optional fun _ => Check.passes_dict

theorem meets_word {words : List String} {msg : String} :
    Meets (.before (oneOf words msg) Check.str.optional)
      ((DocType.word words).Holds (.checked P)) := by
  intro v
  change _ ↔ (v ≠ .null → Reading.isWord words v)
  rw [Check.passes_before, Check.passes_optional, Check.passes_str]
  cases v with
  | str s =>
    cases h : words.contains s <;>
      simp_all [oneOf, inWords, bind, Except.bind, Reading.isWord]
  | _ => simp [oneOf, inWords, bind, Except.bind, Reading.isWord]

theorem meets_percent : Meets (.before (coverageRange P) (Check.int P).optional)
    (DocType.percent.Holds (.checked P)) := by
  intro v
  rw [Check.passes_before, Check.passes_optional, Check.passes_int]
  cases v with
  | null => simp [coverageRange]
  | _ => simp [DocType.Holds, Reading.checked, Reading.lax, and_comm]

theorem meets_section {T : Reading} {name : String} {fields : List (String × Check)}
    {docs : List (String × DocType)}
    (h : fields.Forall₂ (fun f g => f.1 = g.1 ∧ Meets f.2 (g.2.Holds T)) docs) :
    Meets (Check.model name fields).optional ((DocType.fields docs).Holds T) :=
  meets_optional (passes_model_iff h)

/-- The schema is the table, with what is left of the constraints. -/
theorem passes_config : (configJsonSchema P).Passes v ↔ Documented (.checked P) v := by
  have hmodels : Meets modelsSchema.optional ((DocType.fields docModels).Holds (.checked P)) :=
    meets_section (by simp [optionals, docModels, meets_str])
  have hvalidation : Meets (validationSchema P).optional
      ((DocType.fields docValidation).Holds (.checked P)) :=
    meets_section (by simp [docValidation, meets_str, meets_strs, meets_bool,
      meets_natural, meets_percent])
  have hclaude : Meets (claudeMdSchema P).optional
      ((DocType.fields docClaudeMd).Holds (.checked P)) :=
    meets_section (by simp [docClaudeMd, meets_str, meets_bool])
  have huser : Meets gitUserSchema.optional ((DocType.fields docGitUser).Holds (.checked P)) :=
    meets_section (by simp [optionals, docGitUser, meets_str])
  have hgitlab : Meets gitLabSchema.optional ((DocType.fields docGitLab).Holds (.checked P)) :=
    meets_section (by simp [optionals, docGitLab, meets_str])
  have hgit : Meets (gitSchema P).optional ((DocType.fields docGit).Holds (.checked P)) := by
    refine meets_section (.cons ⟨rfl, meets_bool⟩ (.cons ⟨rfl, huser⟩ (.cons ⟨rfl, hgitlab⟩
      (.cons ⟨rfl, meets_word⟩ (.cons ⟨rfl, meets_word⟩ ?_)))))
    simp [meets_str, meets_bool]
  apply passes_model_iff
  simp [configFields, docConfig, meets_str, meets_int, meets_dict, hmodels, hvalidation, hclaude,
    hgit]

end

/-- The table without its `validation` section. -/
def docOthers : List (String × DocType) := docConfig.eraseIdx 12

/-- A value of this kind is in one of these fields of the `validation` section. -/
def InValidation (names : List String) (p : Json → Prop) (v : Json) : Prop :=
  ∃ items validation, v = .obj items ∧ items.lookup "validation" = some (.obj validation) ∧
    ∃ name ∈ names, ∃ x, validation.lookup name = some x ∧ p x

/-- One of the two fields that have only a lower bound is below it. -/
def Negative (P : Pydantic) : Json → Prop :=
  InValidation ["max_fix_rounds", "stdout_preview_limit"] fun x => ∃ n, P.int x = .ok n ∧ n < 0

/-- `int` does not read the string in `target_coverage`. -/
def Fractional : Json → Prop :=
  InValidation ["target_coverage"] fun x => ∃ s, x = .str s ∧ intOfString s = none

section
variable {P : Pydantic} {T T' : Reading} {v : Json}

theorem documented_validation {items : List (String × Json)} : Documented T (.obj items) ↔
    (∀ x, items.lookup "validation" = some x → x ≠ .null →
      (DocType.fields docValidation).Holds T x) ∧ HoldFields T docOthers items := by
  simp only [Documented, DocType.Holds, docOthers, docConfig, List.eraseIdx, HoldFields,
    Json.obj.injEq, exists_eq_left']
  tauto

/-- Two readings of the table that differ in a few fields of the `validation` section. -/
theorem documented_and {names : List String} {p : Json → Prop}
    (hothers : ∀ items, HoldFields T docOthers items ↔ HoldFields T' docOthers items)
    (hvalidation : ∀ validation, HoldFields T docValidation validation ↔
      HoldFields T' docValidation validation ∧
        ¬∃ name ∈ names, ∃ x, validation.lookup name = some x ∧ p x) :
    Documented T v ↔ Documented T' v ∧ ¬InValidation names p v := by
  cases v with
  | obj items =>
    rw [documented_validation, documented_validation, hothers items]
    constructor
    · rintro ⟨h, hrest⟩
      refine ⟨⟨fun x hx hne => ?_, hrest⟩, ?_⟩
      · obtain ⟨validation, rfl, hfields⟩ := h x hx hne
        exact ⟨_, rfl, ((hvalidation _).1 hfields).1⟩
      · rintro ⟨_, validation, hitems, hx, hbad⟩
        cases hitems
        obtain ⟨_, heq, hfields⟩ := h _ hx (by simp)
        cases heq
        exact ((hvalidation _).1 hfields).2 hbad
    · rintro ⟨⟨h, hrest⟩, hgood⟩
      refine ⟨fun x hx hne => ?_, hrest⟩
      obtain ⟨validation, rfl, hfields⟩ := h x hx hne
      exact ⟨_, rfl, (hvalidation _).2 ⟨hfields, fun hbad => hgood ⟨_, _, rfl, hx, hbad⟩⟩⟩
  | _ => simp [Documented, DocType.Holds]

/-- A field of a section, in one reading and in another. -/
theorem field_and {items : List (String × Json)} {name : String} {d d' bad : Json → Prop}
    (h : ∀ x, x ≠ .null → (d x ↔ d' x ∧ ¬bad x)) (hnull : ¬bad .null) :
    (∀ x, items.lookup name = some x → x ≠ .null → d x) ↔
      (∀ x, items.lookup name = some x → x ≠ .null → d' x) ∧
        ¬∃ x, items.lookup name = some x ∧ bad x := by
  constructor
  · intro hd
    refine ⟨fun x hx hne => ((h x hne).1 (hd x hx hne)).1, ?_⟩
    rintro ⟨x, hx, hbad⟩
    have hne : x ≠ .null := by
      rintro rfl
      exact hnull hbad
    exact ((h x hne).1 (hd x hx hne)).2 hbad
  · rintro ⟨hd', hgood⟩ x hx hne
    exact (h x hne).2 ⟨hd' x hx hne, fun hbad => hgood ⟨x, hx, hbad⟩⟩

theorem documented_iff (hP : P.Lawful) : Documented (.lax P) v ↔
    Documented (.unbounded P) v ∧ ¬Negative P v := by
  refine documented_and (fun _ => Iff.rfl) fun validation => ?_
  have hnatural (x : Json) : (Reading.lax P).natural x ↔
      (Reading.unbounded P).natural x ∧ ¬∃ n, P.int x = .ok n ∧ n < 0 := by
    change (∃ n, P.int x = .ok n ∧ 0 ≤ n) ↔ (∃ n, P.int x = .ok n) ∧ _
    cases P.int x <;> simp
  have hnull : ¬∃ n, P.int .null = .ok n ∧ n < 0 := by
    rintro ⟨n, hn, _⟩
    exact hP.int_null n hn
  simp only [docValidation, HoldFields, DocType.Holds,
    field_and (fun x _ => hnatural x) hnull, List.exists_mem_cons_iff, List.not_mem_nil]
  constructor
  · rintro ⟨hafter, ⟨hrounds, hrounds'⟩, hmodel, hfilter, ⟨hlimit, hlimit'⟩, hrest⟩
    refine ⟨⟨hafter, hrounds, hmodel, hfilter, hlimit, hrest⟩, ?_⟩
    rintro (hbad | hbad | ⟨_, hbad, _⟩)
    exacts [hrounds' hbad, hlimit' hbad, hbad]
  · rintro ⟨⟨hafter, hrounds, hmodel, hfilter, hlimit, hrest⟩, hgood⟩
    exact ⟨hafter, ⟨hrounds, fun h => hgood (.inl h)⟩, hmodel, hfilter,
      ⟨hlimit, fun h => hgood (.inr (.inl h))⟩, hrest⟩

/-- What `int` makes of a value is in the range just when what pydantic makes of it is, unless it is
a string that `int` does not read. -/
theorem percent_iff (hP : P.Lawful) (hv : v ≠ .null) : (Reading.checked P).percent v ↔
    (Reading.unbounded P).percent v ∧ ¬∃ s, v = .str s ∧ intOfString s = none := by
  change ((∃ n, P.int v = .ok n) ∧ coverageRange P v = .ok ()) ↔
    (∃ n, P.int v = .ok n ∧ 0 ≤ n ∧ n ≤ 100) ∧ _
  rw [coverageRange_eq hv]
  cases hn : P.int v with
  | error e => simp
  | ok n =>
    obtain hread | ⟨s, rfl, hs⟩ := hP.toInt_eq hn
    · rw [hread]
      have hstr : ¬∃ s, v = .str s ∧ intOfString s = none := by
        rintro ⟨s, rfl, hs⟩
        rw [toInt, hs] at hread
        cases hread
      simp only [Except.bind, Except.ok.injEq, exists_eq_left', hstr, not_false_eq_true, and_true]
      split <;> simp_all
    · simp [toInt, hs, Except.bind]

theorem accepted_iff (hP : P.Lawful) : (configJsonSchema P).Passes v ↔
    Documented (.unbounded P) v ∧ ¬Fractional v := by
  rw [passes_config]
  refine documented_and (fun _ => Iff.rfl) fun validation => ?_
  have hnull : ¬∃ s, Json.null = .str s ∧ intOfString s = none := by
    rintro ⟨s, h, _⟩
    cases h
  simp only [docValidation, HoldFields, DocType.Holds,
    field_and (fun x => percent_iff hP) hnull, List.exists_mem_cons_iff, List.not_mem_nil]
  constructor
  · rintro ⟨hafter, hrounds, hmodel, hfilter, hlimit, ⟨hcoverage, hcoverage'⟩, hrest⟩
    refine ⟨⟨hafter, hrounds, hmodel, hfilter, hlimit, hcoverage, hrest⟩, ?_⟩
    rintro (hbad | ⟨_, hbad, _⟩)
    exacts [hcoverage' hbad, hbad]
  · rintro ⟨⟨hafter, hrounds, hmodel, hfilter, hlimit, hcoverage, hrest⟩, hgood⟩
    exact ⟨hafter, hrounds, hmodel, hfilter, hlimit, ⟨hcoverage, fun h => hgood (.inl h)⟩, hrest⟩

/-- Texts are accepted just when the table admits them, unless exactly one of these is true of an
otherwise documented object: a field with only a lower bound is below it, or the coverage is a
string that `int` does not read. -/
theorem contract_law (P : Pydantic) (hP : P.Lawful) (loads : Loads) (s : String) :
    (validateConfigJson P loads s = .ok () ↔
      ∃ v, loads s = .ok v ∧ Documented (.lax P) v) ↔
    ∀ v, loads s = .ok v → Documented (.unbounded P) v →
      (Negative P v ↔ Fractional v) := by
  rw [accepts_iff]
  cases loads s with
  | error e => simp
  | ok v =>
    simp only [Except.ok.injEq, exists_eq_left', forall_eq', accepted_iff hP, documented_iff hP]
    tauto

end

def roundsText (n : Int) : String :=
  "\x7b\"validation\": \x7b\"max_fix_rounds\": " ++ toString n ++ "\x7d\x7d"

def rounds (n : Int) : Json := .obj [("validation", .obj [("max_fix_rounds", .int n)])]

def roundsLoads (n : Int) : Loads := tableLoads [(roundsText n, rounds n)]

theorem contract_law_rounds :
    (validateConfigJson laxPydantic (roundsLoads 3) (roundsText 3) = .ok () ↔
      ∃ v, roundsLoads 3 (roundsText 3) = .ok v ∧ Documented (.lax laxPydantic) v) := by
  refine (contract_law laxPydantic laxPydantic_lawful _ _).2 ?_
  intro v h _
  have hloads : roundsLoads 3 (roundsText 3) = .ok (rounds 3) := by rfl
  obtain rfl := Except.ok.inj (hloads.symm.trans h)
  simp [Negative, Fractional, InValidation, rounds, laxPydantic, laxInt, List.lookup_cons]

theorem not_contract_law :
    ¬(validateConfigJson laxPydantic (roundsLoads (-1)) (roundsText (-1)) = .ok () ↔
      ∃ v, roundsLoads (-1) (roundsText (-1)) = .ok v ∧
        Documented (.lax laxPydantic) v) := by
  intro h
  have haccepts : validateConfigJson laxPydantic (roundsLoads (-1)) (roundsText (-1)) = .ok () := by
    rfl
  obtain ⟨v, hv, hdoc⟩ := h.1 haccepts
  have hloads : roundsLoads (-1) (roundsText (-1)) = .ok (rounds (-1)) := by rfl
  obtain rfl := Except.ok.inj (hloads.symm.trans hv)
  obtain ⟨_, hnegative⟩ := (documented_iff laxPydantic_lawful).1 hdoc
  exact hnegative ⟨_, _, rfl, rfl, "max_fix_rounds", by simp, .int (-1), rfl, -1, rfl, by decide⟩

end Orchestrator
