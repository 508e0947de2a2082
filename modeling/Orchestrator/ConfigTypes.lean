import Orchestrator.ConfigContract
import Orchestrator.EngineConfig

namespace Orchestrator
open Python
set_option autoImplicit true

/-- What is of a type in the first two readings is so in the third. -/
structure Reading.Yields (T T' T'' : Reading) : Prop where
  string : ∀ v, T.string v → T'.string v → T''.string v
  strings : ∀ v, T.strings v → T'.strings v → T''.strings v
  integer : ∀ v, T.integer v → T'.integer v → T''.integer v
  natural : ∀ v, T.natural v → T'.natural v → T''.natural v
  percent : ∀ v, T.percent v → T'.percent v → T''.percent v
  boolean : ∀ v, T.boolean v → T'.boolean v → T''.boolean v
  object : ∀ v, T.object v → T'.object v → T''.object v
  word : ∀ words v, T.word words v → T'.word words v → T''.word words v

section
variable {T T' T'' : Reading}

mutual

theorem DocType.holds_of_both (h : T.Yields T' T'') :
    ∀ d v, DocType.Holds T d v → DocType.Holds T' d v → DocType.Holds T'' d v
  | .string, v, hv, hv' => h.string v hv hv'
  | .strings, v, hv, hv' => h.strings v hv hv'
  | .integer, v, hv, hv' => h.integer v hv hv'
  | .natural, v, hv, hv' => h.natural v hv hv'
  | .percent, v, hv, hv' => h.percent v hv hv'
  | .boolean, v, hv, hv' => h.boolean v hv hv'
  | .object, v, hv, hv' => h.object v hv hv'
  | .word words, v, hv, hv' => h.word words v hv hv'
  | .fields fields, _, ⟨items, rfl, hv⟩, ⟨_, heq, hv'⟩ =>
    ⟨items, rfl, holdFields_of_both h fields items hv (Json.obj.inj heq ▸ hv')⟩

theorem holdFields_of_both (h : T.Yields T' T'') :
    ∀ fields items, HoldFields T fields items → HoldFields T' fields items →
      HoldFields T'' fields items
  | [], _, _, _ => trivial
  | (_, d) :: fields, items, ⟨hd, hv⟩, ⟨hd', hv'⟩ =>
    ⟨fun x hx hne => d.holds_of_both h x (hd x hx hne) (hd' x hx hne),
      holdFields_of_both h fields items hv hv'⟩

end

end

theorem checked_yields (P : Pydantic) : (Reading.checked P).Yields .scalars .strict where
  string _ h _ := h
  strings _ h _ := h
  integer _ _ h := h
  natural _ _ h := h
  percent _ _ h := h
  boolean _ _ h := h
  object _ h _ := h
  word _ _ h _ := h

theorem strict_yields : Reading.strict.Yields .strict .scalars where
  string _ _ _ := trivial
  strings _ _ _ := trivial
  integer _ _ h := h
  natural _ _ h := h
  percent _ _ h := h
  boolean _ _ h := h
  object _ _ _ := trivial
  word _ _ _ _ := trivial

section
variable {P : Pydantic} {settings : EngineSettings} {items : List (String × Json)}
  {workDir : String}
  {v : Json}

/-- What the schema accepts is of the types of JSON just when its integers and booleans are. -/
theorem strict_iff_scalars (h : Documented (.checked P) v) :
    Documented .strict v ↔ Documented .scalars v :=
  ⟨fun hs => DocType.holds_of_both strict_yields _ _ hs hs,
    DocType.holds_of_both (checked_yields P) _ _ h⟩

theorem holdFields_iff {T : Reading} {fields : List (String × DocType)} :
    HoldFields T fields items ↔
      ∀ f ∈ fields, ∀ x, items.lookup f.1 = some x → x ≠ .null → f.2.Holds T x := by
  induction fields with
  | nil => simp [HoldFields]
  | cons f fields ih => rw [HoldFields, List.forall_mem_cons, ih]

theorem envConfig_typed : ∀ f ∈ docConfig, ∀ x,
    (envConfig settings workDir).lookup f.1 = some x → f.2.Holds .strict x := by
  simp [docConfig, envConfig, List.lookup_cons, DocType.Holds, Reading.strict, Reading.isString,
    Reading.isInteger]

theorem forced_string : ∀ f ∈ docConfig, f.1 = "api_key" ∨ f.1 = "model" ∨ f.1 = "work_dir" →
    f.2 = .string := by
  simp [docConfig]

/-- The values that the merge adds or replaces are of their documented types. -/
theorem merged_typed (h : HoldFields (.checked P) docConfig items) :
    HoldFields .strict docConfig (mergedFields settings items workDir) ↔
      HoldFields .strict docConfig items := by
  simp only [holdFields_iff, lookup_merged] at h ⊢
  refine forall₂_congr fun f hf => ?_
  by_cases hforced : f.1 = "api_key" ∨ f.1 = "model" ∨ f.1 = "work_dir"
  · have hstring := forced_string f hf hforced
    have hitems : ∀ x, items.lookup f.1 = some x → x ≠ .null → f.2.Holds .strict x := by
      intro x hx hne
      have hchecked := h f hf x hx hne
      rw [hstring] at hchecked ⊢
      exact hchecked
    refine iff_of_true ?_ hitems
    intro x hx _
    rw [hstring]
    change ∃ s, x = .str s
    split at hx
    · exact ⟨_, (Option.some.inj hx).symm⟩
    · split at hx
      · exact ⟨_, (Option.some.inj hx).symm⟩
      · split at hx
        · exact ⟨_, (Option.some.inj hx).symm⟩
        · rename_i hkey hmodel hdir
          exact absurd hforced (by simp [hkey, hmodel, hdir])
  · simp only [not_or] at hforced
    rw [if_neg hforced.1, if_neg hforced.2.1, if_neg hforced.2.2]
    cases hx : items.lookup f.1 with
    | some x => rw [Option.some_or]
    | none =>
      rw [Option.none_or]
      refine iff_of_true (fun x hbase _ => envConfig_typed f hf x hbase) ?_
      intro x hx
      cases hx

/-- The engine gets values of the documented types just when the scalars of the accepted text are of
these types already. -/
theorem types_law (P : Pydantic) (loads : Loads) (settings : EngineSettings) (s workDir : String)
    (merged : List (String × Json)) (h : validateConfigJson P loads s = .ok ())
    (hmerge : requestDict loads settings workDir s = .ok merged) :
    Documented .strict (.obj merged) ↔ ∀ v, loads s = .ok v → Documented .scalars v := by
  obtain ⟨v, hv, hpasses⟩ := accepts_iff.1 h
  have hchecked := passes_config.1 hpasses
  obtain ⟨items, rfl, hfields⟩ := hchecked
  obtain ⟨hmodel, hkey, _⟩ := textual_of_accepts h hv
  rw [requestDict, hv] at hmerge
  obtain ⟨_, _, hok⟩ | ⟨_, errors, herror⟩ := merge_eq settings workDir hmodel hkey
  · obtain rfl := Except.ok.inj (hok.symm.trans hmerge)
    have hstrict : Documented .strict (.obj (mergedFields settings items workDir)) ↔
        Documented .strict (.obj items) := by
      simpa [Documented, DocType.Holds] using merged_typed hfields
    rw [hstrict, strict_iff_scalars ⟨items, rfl, hfields⟩, hv]
    simp
  · cases herror.symm.trans hmerge

end

def limitText (limit : String) : String := "\x7b\"file_limit\": " ++ limit ++ "\x7d"

def limitLoads : Loads := tableLoads [
  (limitText "20", .obj [("file_limit", .int 20)]),
  (limitText "\"20\"", .obj [("file_limit", .str "20")])]

def limited (v : Json) : List (String × Json) := [
  ("model", .str "GPT-4.1"), ("api_key", .str "sk-env"), ("llm_url", .str "https://api.poe.com"),
  ("work_dir", .str "w"), ("file_limit", v)]

theorem types_law_integer : Documented .strict (.obj (limited (.int 20))) := by
  refine (types_law laxPydantic limitLoads someSettings (limitText "20") "w" _ rfl rfl).2 ?_
  intro v hv
  obtain rfl := Except.ok.inj (hv.symm.trans (show limitLoads (limitText "20") =
    .ok (.obj [("file_limit", .int 20)]) from rfl))
  refine ⟨_, rfl, ?_⟩
  simp [holdFields_iff, docConfig, List.lookup_cons, DocType.Holds, Reading.scalars,
    Reading.isInteger]

theorem not_types_law : validateConfigJson laxPydantic limitLoads (limitText "\"20\"") = .ok () ∧
    requestDict limitLoads someSettings "w" (limitText "\"20\"") = .ok (limited (.str "20")) ∧
    ¬Documented .strict (.obj (limited (.str "20"))) := by
  refine ⟨rfl, rfl, ?_⟩
  rintro ⟨items, heq, hfields⟩
  cases heq
  obtain ⟨n, hn⟩ := holdFields_iff.1 hfields ("file_limit", .integer) (by simp [docConfig]) _ rfl
    (by simp)
  cases hn

end Orchestrator
