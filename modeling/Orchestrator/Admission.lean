import Orchestrator.Provenance
import Orchestrator.Engines
import Orchestrator.ConfigTypes

namespace Orchestrator
open Python Caching
set_option autoImplicit true

/-- A call into the engine's package raises this. -/
inductive Cio.Raises (cio : Cio Config) (e : PyError) : Prop where
  | fromDict (fields : List (String × Json)) (h : cio.fromDict fields = .error e)
  | fromYaml (path : String) (h : cio.fromYaml path = .error e)
  | toDict (config : Config) (h : cio.toDict config = .error e)
  | validate (config : Config) (h : cio.validate config = .error e)
  | cioLogger (n : Nat) (workDir : String) (h : cio.cioLogger n workDir = .error e)
  | projectStore (n : Nat) (workDir : String) (h : cio.projectStore n workDir = .error e)
  | projectNamer (apiKey : String) (h : cio.projectNamer apiKey = .error e)
  | workflowEngine (config : Config) (h : cio.workflowEngine config = .error e)
  | stateTracker (workDir : String) (h : cio.stateTracker workDir = .error e)

/-- The lines for the required fields that are empty in the end. -/
def missingFields (settings : EngineSettings) (items : List (String × Json)) : List String :=
  (if effective items "model" settings.cioModel = "" then [fieldError "model" "CIO_MODEL"]
    else []) ++
  if effective items "api_key" settings.cioApiKey = "" then [fieldError "api_key" "CIO_API_KEY"]
  else []

section
variable {settings : EngineSettings} {items : List (String × Json)} {workDir : String}
  {Config : Type} {cio : Cio Config} {loads : Loads} {e : PyError}

theorem merge_of_textual (settings : EngineSettings) (workDir : String)
    (hmodel : Textual items "model") (hkey : Textual items "api_key") :
    mergeWithEnvDefaults settings items workDir =
      if missingFields settings items = [] then .ok (mergedFields settings items workDir)
      else .error (missingError (missingFields settings items)) := by
  have hmodel : stripOrEmpty (dictGet (dictSet "work_dir" (.str workDir)
      (dictUpdate (envConfig settings workDir) items)) "model" .null) =
        .ok (effective items "model" settings.cioModel) :=
    stripOrEmpty_field hmodel (by
      rw [lookup_dictSet, if_neg (by decide), lookup_dictUpdate]
      rfl)
  have hkey : stripOrEmpty (dictGet (dictSet "model"
      (.str (effective items "model" settings.cioModel)) (dictSet "work_dir" (.str workDir)
        (dictUpdate (envConfig settings workDir) items))) "api_key" .null) =
          .ok (effective items "api_key" settings.cioApiKey) :=
    stripOrEmpty_field hkey (by
      rw [lookup_dictSet, if_neg (by decide), lookup_dictSet, if_neg (by decide),
        lookup_dictUpdate]
      rfl)
  unfold mergeWithEnvDefaults
  dsimp only
  rw [hmodel]
  simp only [bind, Except.bind]
  rw [hkey]
  rfl

/-- What the merge adds or replaces is as admissible as what the caller may write. -/
theorem merged_holds {T : Reading} (hstring : ∀ s, T.string (.str s))
    (hinteger : ∀ n, T.integer (.int n)) (h : HoldFields T docConfig items) :
    HoldFields T docConfig (mergedFields settings items workDir) := by
  rw [holdFields_iff] at h ⊢
  have henv : ∀ f ∈ docConfig, ∀ x, (envConfig settings workDir).lookup f.1 = some x →
      f.2.Holds T x := by
    simp [docConfig, envConfig, List.lookup_cons, DocType.Holds, hstring, hinteger]
  intro f hf x hx hne
  rw [lookup_merged] at hx
  by_cases hforced : f.1 = "api_key" ∨ f.1 = "model" ∨ f.1 = "work_dir"
  · rw [forced_string f hf hforced]
    change T.string x
    obtain ⟨s, rfl⟩ : ∃ s, x = .str s := by
      rcases hforced with hname | hname | hname
      · rw [hname, if_pos rfl] at hx
        exact ⟨_, (Option.some.inj hx).symm⟩
      · rw [hname, if_neg (by decide), if_pos rfl] at hx
        exact ⟨_, (Option.some.inj hx).symm⟩
      · rw [hname, if_neg (by decide), if_neg (by decide), if_pos rfl] at hx
        exact ⟨_, (Option.some.inj hx).symm⟩
    exact hstring s
  · simp only [not_or] at hforced
    rw [if_neg hforced.1, if_neg hforced.2.1, if_neg hforced.2.2, Option.or_eq_some_iff] at hx
    rcases hx with hx | ⟨-, hx⟩
    · exact h f hf x hx hne
    · exact henv f hf x hx

/-- The schema accepts what is made of a text that it has accepted. -/
theorem merged_passes {P : Pydantic} (hP : P.Lawful)
    (h : (configJsonSchema P).Passes (.obj items)) :
    (configJsonSchema P).Passes (.obj (mergedFields settings items workDir)) := by
  rw [passes_config] at h ⊢
  obtain ⟨fields, heq, hfields⟩ := h
  obtain rfl := Json.obj.inj heq
  exact ⟨_, rfl, merged_holds (fun s => ⟨s, rfl⟩) (fun n => ⟨n, hP.int_int n⟩) hfields⟩

theorem bind_error {x : Except PyError α} {f : α → Except PyError β} (h : x >>= f = .error e) :
    x = .error e ∨ ∃ a, x = .ok a ∧ f a = .error e := by
  cases x with
  | error e' =>
    obtain rfl := Except.error.inj h
    exact .inl rfl
  | ok a => exact .inr ⟨a, rfl, h⟩

/-- A call into the package, and then the rest. -/
theorem raises_bind {x : Except PyError α} {f : α → Except PyError β} (h : x >>= f = .error e)
    (hx : x = .error e → cio.Raises e) (hf : ∀ a, f a = .error e → cio.Raises e) :
    cio.Raises e := by
  rcases bind_error h with h | ⟨a, -, h⟩
  · exact hx h
  · exact hf a h

theorem makeScheduler_error (h : makeScheduler cio workDir = .error e) : cio.Raises e := by
  apply raises_bind h (.projectStore _ _)
  intro _ h
  apply raises_bind h (.cioLogger _ _)
  intro _ h
  apply raises_bind h (.stateTracker _)
  intro _ h
  cases h

/-- A build raises what the configuration raises, or what the package does. -/
theorem build_error {moment : Nat} {configJson : Option String}
    (h : buildEngineAndScheduler cio loads settings moment workDir configJson = .error e) :
    loadConfig cio loads settings workDir configJson = .error e ∨ cio.Raises e := by
  rcases bind_error h with h | ⟨config, -, h⟩
  · exact .inl h
  · right
    apply raises_bind h (.validate _)
    intro _ h
    apply raises_bind h (.cioLogger _ _)
    intro _ h
    apply raises_bind h (.projectStore _ _)
    intro _ h
    apply raises_bind h (.projectNamer _)
    intro _ h
    apply raises_bind h (.workflowEngine _)
    intro _ h
    apply raises_bind h makeScheduler_error
    intro _ h
    cases h

theorem loadConfig_none_error (h : loadConfig cio loads settings workDir none = .error e) :
    cio.Raises e := by
  unfold loadConfig at h
  rw [if_neg (by simp)] at h
  split at h
  · apply raises_bind h (.fromYaml _)
    intro _ h
    apply raises_bind h (.toDict _)
    intro _ h
    exact .fromDict _ h
  · exact .fromDict _ h

theorem loadConfig_some {s : String} (hs : s ≠ "") (hloads : loads s = .ok (.obj items))
    (hmodel : Textual items "model") (hkey : Textual items "api_key") :
    loadConfig cio loads settings workDir (some s) =
      if missingFields settings items = [] then cio.fromDict (mergedFields settings items workDir)
      else .error (missingError (missingFields settings items)) := by
  rw [loadConfig, Option.getD_some, if_pos hs, requestDict, hloads]
  dsimp only
  rw [merge_of_textual settings workDir hmodel hkey]
  split
  · rfl
  · rfl

end

namespace EngineFactory
variable {Config : Type} {F : EngineFactory Config} {P : Pydantic} {request : EngineRequest}
  {items : List (String × Json)} {n : Nat}

/-- The text of the request is not blank, and these are its fields. -/
def Reads (F : EngineFactory Config) (request : EngineRequest) (items : List (String × Json)) :
    Prop :=
  resolvedConfigJson request ≠ "" ∧ F.loads (resolvedConfigJson request) = .ok (.obj items)

/-- What the factory may give for a request: an engine on the configuration of the file or of the
environment, an engine on the fields of the text, the list of the fields that are missing, or what
the package raises. -/
inductive Furnishes (F : EngineFactory Config) (P : Pydantic) (request : EngineRequest) :
    Except PyError (EnginePair Config) → Prop where
  | plain {pair : EnginePair Config} (ht : resolvedConfigJson request = "")
      (h : loadConfig (F.cio pair.built) F.loads F.settings (F.directory request) none =
        .ok pair.engine.config) :
      Furnishes F P request (.ok pair)
  | own {pair : EnginePair Config} {items : List (String × Json)} (ht : F.Reads request items)
      (hmissing : missingFields F.settings items = [])
      (hpasses : (configJsonSchema P).Passes
        (.obj (mergedFields F.settings items (F.directory request))))
      (h : (F.cio pair.built).fromDict (mergedFields F.settings items (F.directory request)) =
        .ok pair.engine.config) :
      Furnishes F P request (.ok pair)
  | incomplete {items : List (String × Json)} (ht : F.Reads request items)
      (hmissing : missingFields F.settings items ≠ []) :
      Furnishes F P request (.error (missingError (missingFields F.settings items)))
  | raised {n : Nat} {e : PyError}
      (hmissing : ∀ items, F.Reads request items → missingFields F.settings items = [])
      (h : (F.cio n).Raises e) :
      Furnishes F P request (.error e)

theorem Reads.unique {items' : List (String × Json)} (h : F.Reads request items)
    (h' : F.Reads request items') : items = items' :=
  Json.obj.inj (Except.ok.inj (h.2.symm.trans h'.2))

theorem furnishes_plain (ht : resolvedConfigJson request = "") :
    F.Furnishes P request (F.build n request) := by
  have hmissing (items : List (String × Json)) (h : F.Reads request items) :
      missingFields F.settings items = [] := absurd ht h.1
  cases hb : F.build n request with
  | error e =>
    rw [build, if_pos ht] at hb
    rcases build_error hb with h | h
    · exact .raised hmissing (loadConfig_none_error h)
    · exact .raised hmissing h
  | ok pair =>
    rw [build, if_pos ht, resolvedWorkDir_eq] at hb
    obtain ⟨config, hconfig, rfl⟩ := build_cases hb
    exact .plain ht hconfig

theorem furnishes_own (hP : P.Lawful) (ht : F.Reads request items)
    (hv : validateConfigJson P F.loads (resolvedConfigJson request) = .ok ()) :
    F.Furnishes P request (F.build n request) := by
  obtain ⟨hs, hloads⟩ := ht
  obtain ⟨hmodel, hkey, -⟩ := textual_of_accepts hv hloads
  obtain ⟨v, hv, hpasses⟩ := accepts_iff.1 hv
  obtain rfl := Except.ok.inj (hloads.symm.trans hv)
  have hload (cio : Cio Config) (workDir : String) :
      loadConfig cio F.loads F.settings workDir (some (resolvedConfigJson request)) =
        if missingFields F.settings items = []
        then cio.fromDict (mergedFields F.settings items workDir)
        else .error (missingError (missingFields F.settings items)) :=
    loadConfig_some hs hloads hmodel hkey
  cases hb : F.build n request with
  | error e =>
    rw [build, if_neg hs] at hb
    by_cases hmissing : missingFields F.settings items = []
    · have hall (items' : List (String × Json)) (h : F.Reads request items') :
          missingFields F.settings items' = [] := by
        rwa [← Reads.unique ⟨hs, hloads⟩ h]
      rcases build_error hb with h | h
      · rw [hload, if_pos hmissing] at h
        exact .raised hall (.fromDict _ h)
      · exact .raised hall h
    · have herror := hload (F.cio n) (F.resolvedWorkDir request)
      rw [if_neg hmissing] at herror
      rw [buildEngineAndScheduler, herror] at hb
      obtain rfl := Except.error.inj hb
      exact .incomplete ⟨hs, hloads⟩ hmissing
  | ok pair =>
    rw [build, if_neg hs, resolvedWorkDir_eq] at hb
    obtain ⟨config, hconfig, rfl⟩ := build_cases hb
    rw [hload] at hconfig
    by_cases hmissing : missingFields F.settings items = []
    · rw [if_pos hmissing] at hconfig
      exact .own ⟨hs, hloads⟩ hmissing (merged_passes hP hpasses) hconfig
    · rw [if_neg hmissing] at hconfig
      cases hconfig

/-- The factory can do no more than this with a text that has been accepted. -/
theorem furnishes_build (hP : P.Lawful) (request : EngineRequest)
    (hv : validateRequest P F.loads request.configJson = .ok ()) (n : Nat) :
    F.Furnishes P request (F.build n request) := by
  unfold validateRequest at hv
  dsimp only at hv
  split at hv
  · rename_i ht
    exact furnishes_plain ht
  · rename_i hs
    obtain ⟨v, hloads, hpasses⟩ := accepts_iff.1 hv
    obtain ⟨items, rfl, -⟩ := Check.passes_model.1 hpasses
    exact furnishes_own hP ⟨hs, hloads⟩ hv

/-- An answer out of the cache is that of an earlier build for the same request. -/
theorem next_built (hsha : Function.Injective F.sha256)
    (calls : List (Caching.Call EngineRequest)) (request : EngineRequest) :
    ∃ n ≤ calls.length, F.build n request = F.next calls request := by
  rw [next]
  rcases F.cache.get_cases calls.length request (F.cache.cacheAt calls calls.length) with
    ⟨pair, hl, hg⟩ | ⟨pair, -, hb, hg⟩ | ⟨e, -, hb, hg⟩
  · obtain ⟨n, hn, request', -, hkey, hb⟩ := Memo.cached hl
    obtain ⟨hdir, hconfig⟩ := (key_eq_iff hsha).1 hkey
    rw [hg]
    exact ⟨n, Nat.le_of_lt hn, (build_congr hdir hconfig).symm.trans hb⟩
  · rw [hg]
    exact ⟨_, Nat.le_refl _, hb⟩
  · rw [hg]
    exact ⟨_, Nat.le_refl _, hb⟩

end EngineFactory

open Concurrency Async

/-- What the factory is to be asked for on account of this request. -/
def TaskCreateRequest.engineRequest (body : TaskCreateRequest) : EngineRequest :=
  ⟨orNone (body.workDir.getD ""), orNone (body.configJson.getD "")⟩

def posted : SysLabel Text Event → Option TaskCreateRequest
  | .spawn _ (.request body) => some body
  | _ => none

/-- A request starts only when its validator has accepted its text. -/
def admits (P : Pydantic) (loads : Loads) : Filter Text Event := fun _ _ l _ =>
  ∀ body ∈ posted l, (validateRequest P loads body.configJson).isOk = true

theorem getD_orNone (s : String) : (orNone s).getD "" = s := by
  unfold orNone
  split
  · rename_i h
    exact h.symm
  · rfl

theorem eq_ok_of_isOk {r : Except ε Unit} (h : r.isOk = true) : r = .ok () := by
  cases r with
  | error e => cases h
  | ok _ => rfl

theorem Task.AskedBy.engineRequest {t : Task} {body : TaskCreateRequest} (h : t.AskedBy body) :
    t.engineRequest = body.engineRequest := by
  rw [Task.engineRequest, TaskCreateRequest.engineRequest, h.workDir, h.configJson]

/-- The validator and the factory look at the same text. -/
theorem validate_engineRequest (P : Pydantic) (loads : Loads) (body : TaskCreateRequest) :
    validateRequest P loads body.engineRequest.configJson =
      validateRequest P loads body.configJson := by
  rw [validateRequest, validateRequest, TaskCreateRequest.engineRequest, getD_orNone]

theorem asked_exit {q : Kind} {b : Except Exc Returned} {w w' : World Text Event}
    {o : Option Kind} (h : exit q b w w' o) : ∀ q' ∈ o, Kind.asked q' = none := by
  cases q with
  | recover | request _ =>
    cases b <;> obtain ⟨rfl, -⟩ := h <;> exact nofun
  | worker =>
    cases b with
    | error _ =>
      obtain ⟨rfl, -⟩ := h
      exact nofun
    | ok _ =>
      obtain ⟨rfl, -⟩ := h
      intro q' hq
      split at hq
      · cases hq
        rfl
      · cases hq

/-- Every request of a run has been let in. -/
theorem admitted_of_run {M : Machine (Cmd Text Event) Cmd.Answer (Except Exc Returned)
    (World Text Event) Kind Tick} {P : Pydantic} {loads : Loads} {ok : Filter Text Event}
    {s₀ s : SysConfig Text Event} {tr : List (SysLabel Text Event)}
    (hok : ∀ tr w l w', ok tr w l w' → admits P loads tr w l w')
    (hr : Run M ok s₀ tr s) {body : TaskCreateRequest} (h : .spawn i (.request body) ∈ tr) :
    validateRequest P loads body.configJson = .ok () := by
  induction hr with
  | nil => cases h
  | cons _ _ hl ih =>
    rcases List.mem_cons.1 h with rfl | h
    · exact eq_ok_of_isOk (hok _ _ _ _ hl body rfl)
    · exact ih h

section
variable [TaskJson Text] {tr : List (SysLabel Text Event)} {i : Nat} {Config : Type}
  {F : EngineFactory Config} {P : Pydantic} {S : Setup Event} {s : SysConfig Text Event}

theorem task_after (i : Nat) {d : Equipment} {c : Cmd Text Event} {r : c.Answer} {t : Task}
    (h : (d.after c r).task = some t) : d.task = some t ∨ ∃ x,
      (.cmd i c r : SysLabel Text Event) = .cmd i .brpop (.ok (some x)) ∧ parse x = some t := by
  cases c with
  | brpop =>
    rcases r with e | _ | x
    · exact .inl h
    · exact .inl h
    · exact .inr ⟨x, rfl, h⟩
  | factoryGet _ _ =>
    cases r with
    | error e => exact .inl h
    | ok _ => exact .inl h
  | _ => exact .inl h

/-- A worker's task has come out of the queue. -/
theorem handed_of_run {ok : Filter Text Event} (hr : Run (system Text S) ok (.idle .init) tr s)
    {t : Task} (h : ((equipment Text Event).read i tr).task = some t) :
    ∃ x, .cmd i .brpop (.ok (some x)) ∈ tr ∧ parse x = some t := by
  induction hr with
  | nil => cases h
  | @cons tr s l s' hr hs hok ih =>
    have hrest (h : ((equipment Text Event).read i tr).task = some t) :
        ∃ x, .cmd i .brpop (.ok (some x)) ∈ l :: tr ∧ parse x = some t := by
      obtain ⟨x, hx, ht⟩ := ih h
      exact ⟨x, List.mem_cons_of_mem _ hx, ht⟩
    cases hs with
    | env _ => exact hrest h
    | halt _ => cases h
    | spawn _ _ | exit _ _ =>
      rw [Monitor.read] at h
      split at h
      · cases h
      · exact hrest h
    | answer _ ha =>
      cases ha with
      | cmd _ =>
        rw [Monitor.read] at h
        split at h
        · rename_i hj
          subst hj
          rcases task_after _ h with h | ⟨x, hx, ht⟩
          · exact hrest h
          · exact ⟨x, hx ▸ List.mem_cons_self, ht⟩
        · exact hrest h
      | abort h' =>
        obtain ⟨e, rfl, -⟩ := h'
        rw [Monitor.read] at h
        split at h
        · rcases task_after i h with h | ⟨x, hx, -⟩
          · exact hrest h
          · cases hx
        · exact hrest h

theorem provenance_of_system {ok : Filter Text Event}
    (hr : Run (system Text S) ok (.idle .init) tr s) : Provenance tr s.world := by
  have hr' : Run (orchestrator Text S spawn exit) anyway (.idle .init) tr s :=
    hr.refine fun _ _ _ _ _ _ _ => trivial
  apply provenance_of_run _ _ hr'
  · exact fun _ _ _ h => redis_spawn h
  · exact fun _ _ _ _ _ h => ⟨redis_exit h, asked_exit h⟩

/-- What the factory is asked for is what some request has asked for, whose validator has accepted
the text that the factory reads. -/
structure Admitted (P : Pydantic) (F : EngineFactory Config) (tr : List (SysLabel Text Event))
    (request : EngineRequest) (r : Except Exc Unit) : Prop where
  posted : ∃ i body, .spawn i (.request body) ∈ tr ∧ body.engineRequest = request
  accepted : validateRequest P F.loads request.configJson = .ok ()
  answered : r.isOk = (F.next (factoryCalls tr) request).isOk
  furnished : F.Furnishes P request (F.next (factoryCalls tr) request)

/-- This holds of every call of the factory. -/
def AdmissionLaw (P : Pydantic) (F : EngineFactory Config) (tr : List (SysLabel Text Event)) :
    Prop :=
  ∀ tr' i workDir configJson r, .cmd i (.factoryGet workDir configJson) r :: tr' <:+ tr →
    Admitted P F tr' ⟨workDir, configJson⟩ r

/-- The workers have this factory, and the requests pass their validator. -/
def served (P : Pydantic) (F : EngineFactory Config) : Filter Text Event := fun tr w l w' =>
  furnished F tr w l w' ∧ admits P F.loads tr w l w'

theorem admitted_call {workDir configJson : Option String} {r : Except Exc Unit}
    {w' : World Text Event} (hP : P.Lawful) (hsha : Function.Injective F.sha256)
    (hr : Run (system Text S) (served P F) (.idle .init) tr s)
    (hmeets : (equipment Text Event).Meets Equipped
      (.cmd i (.factoryGet workDir configJson) r :: tr))
    (hok : served P F tr s.world (.cmd i (.factoryGet workDir configJson) r) w') :
    Admitted P F tr ⟨workDir, configJson⟩ r := by
  obtain ⟨t, ht, hreq⟩ : ∃ t ∈ ((equipment Text Event).read i tr).task,
    t.engineRequest = ⟨workDir, configJson⟩ := hmeets
  obtain ⟨x, hx, hparse⟩ := handed_of_run hr ht
  obtain ⟨j, body, hspawn, hbody⟩ := (provenance_of_system hr).taken i x t hx hparse
  have heq : body.engineRequest = ⟨workDir, configJson⟩ := hbody.engineRequest.symm.trans hreq
  have haccepted : validateRequest P F.loads configJson = .ok () := by
    have htext : body.engineRequest.configJson = configJson := congrArg EngineRequest.configJson heq
    rw [← htext, validate_engineRequest]
    exact admitted_of_run (fun _ _ _ _ h => h.2) hr hspawn
  refine ⟨⟨j, body, hspawn, heq⟩, haccepted, hok.1 _ rfl, ?_⟩
  obtain ⟨n, -, hn⟩ := F.next_built hsha (factoryCalls tr) ⟨workDir, configJson⟩
  rw [← hn]
  exact F.furnishes_build hP ⟨workDir, configJson⟩ haccepted n

/-- The factory reads only what the validator has accepted, and finds nothing wrong with it but that
a required field is empty. -/
theorem admission_law (hP : P.Lawful) (hsha : Function.Injective F.sha256)
    (hr : Run (system Text S) (served P F) (.idle .init) tr s) : AdmissionLaw P F tr := by
  induction hr with
  | nil =>
    intro tr' i workDir configJson r h
    cases List.suffix_nil.1 h
  | cons hr hs hok ih =>
    intro tr' i workDir configJson r h
    rcases List.suffix_cons_iff.1 h with heq | h
    · obtain ⟨rfl, rfl⟩ := List.cons.inj heq
      have hrun := hr.cons hs hok
      exact admitted_call hP hsha hr
        (Monitor.meets_of_run (fun _ q => Equipment.safe_body q) hrun).1 hok
    · exact ih tr' i workDir configJson r h

end

instance (P : Pydantic) (loads : Loads) (tr : List (SysLabel Text Event)) (w : World Text Event)
    (l : SysLabel Text Event) (w' : World Text Event) : Decidable (admits P loads tr w l w') :=
  inferInstanceAs (Decidable (∀ body ∈ posted l, (validateRequest P loads body.configJson).isOk))

instance {Config : Type} (P : Pydantic) (F : EngineFactory Config)
    (tr : List (SysLabel Text Event)) (w : World Text Event) (l : SysLabel Text Event)
    (w' : World Text Event) : Decidable (served P F tr w l w') :=
  inferInstanceAs (Decidable (_ ∧ _))

/-- A request with a configuration of its own, and blanks around it. -/
def ownRequest : TaskCreateRequest :=
  { demoRequest with configJson := some " \x7b\"model\": \" m \"\x7d " }

/-- A task with its own model, up to its engine. -/
theorem admission_law_own : ∃ tr s, DemoRun (served laxPydantic plainFactory) tr s ∧
    ((equipment Task String).read 2 tr).request = some ownRequest.engineRequest ∧
    AdmissionLaw laxPydantic plainFactory tr := by
  obtain ⟨tr, s, hr, ho⟩ := demoDriver.drive_observe (served laxPydantic plainFactory)
    (.idle .init)
    (start ++ [.spawn 1 (.request ownRequest)] ++ go 1 9 ++ [.exit 1, .spawn 2 .worker] ++ go 2 5)
    (fun o => ((equipment Task String).read 2 o.1).request)
    (show _ = some ownRequest.engineRequest by decide)
  exact ⟨tr, s, hr, ho, admission_law laxPydantic_lawful Function.injective_id hr⟩

end Orchestrator
