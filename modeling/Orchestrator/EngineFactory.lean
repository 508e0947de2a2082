import Orchestrator.Caching.Memo
import Orchestrator.EngineConfig

namespace Orchestrator
open Python Caching
set_option autoImplicit true

/-- What the factory calls of the engine's package, in one build. Every call may raise. A logger and
a store are made twice: once for the engine, and once for the scheduler. -/
structure Cio (Config : Type) where
  fromDict : List (String × Json) → Except PyError Config
  fromYaml : String → Except PyError Config
  toDict : Config → Except PyError (List (String × Json))
  validate : Config → Except PyError Unit
  workDir : Config → String
  apiKey : Config → String
  cioLogger : Nat → String → Except PyError Unit
  projectStore : Nat → String → Except PyError Unit
  projectNamer : String → Except PyError Unit
  workflowEngine : Config → Except PyError Unit
  stateTracker : String → Except PyError Unit

structure CIOLogger where
  workDir : String

structure ProjectStore where
  workDir : String

structure ProjectNamer where
  apiKey : String

structure WorkflowEngine (Config : Type) where
  config : Config
  logger : CIOLogger
  store : ProjectStore
  namer : ProjectNamer

structure StateTracker where
  workDir : String
  logger : CIOLogger

structure Scheduler where
  workDir : String
  projectStore : ProjectStore
  stateTracker : StateTracker

/-- An engine and its scheduler, with the moment that tells them from others. -/
structure EnginePair (Config : Type) where
  built : Nat
  engine : WorkflowEngine Config
  scheduler : Scheduler

section
variable {Config : Type}

def makeScheduler (cio : Cio Config) (workDir : String) : Except PyError Scheduler := do
  cio.projectStore 1 workDir
  cio.cioLogger 1 workDir
  cio.stateTracker workDir
  .ok ⟨workDir, ⟨workDir⟩, ⟨workDir, ⟨workDir⟩⟩⟩

/-- The configuration, from the request, a file or the environment. -/
def loadConfig (cio : Cio Config) (loads : Loads) (settings : EngineSettings)
    (resolvedWorkDir : String)
    (configJson : Option String) : Except PyError Config :=
  if configJson.getD "" ≠ "" then do
    let merged ← requestDict loads settings resolvedWorkDir (configJson.getD "")
    cio.fromDict merged
  else if settings.cioConfigPath ≠ "" then do
    let base ← cio.fromYaml settings.cioConfigPath
    let fields ← cio.toDict base
    cio.fromDict (dictSet "work_dir" (.str resolvedWorkDir) fields)
  else cio.fromDict (envConfig settings resolvedWorkDir)

def buildEngineAndScheduler (cio : Cio Config) (loads : Loads) (settings : EngineSettings)
    (moment : Nat)
    (resolvedWorkDir : String) (configJson : Option String) :
    Except PyError (EnginePair Config) := do
  let config ← loadConfig cio loads settings resolvedWorkDir configJson
  cio.validate config
  cio.cioLogger 0 (cio.workDir config)
  cio.projectStore 0 (cio.workDir config)
  cio.projectNamer (cio.apiKey config)
  cio.workflowEngine config
  let scheduler ← makeScheduler cio (cio.workDir config)
  .ok ⟨moment, ⟨config, ⟨cio.workDir config⟩, ⟨cio.workDir config⟩, ⟨cio.apiKey config⟩⟩, scheduler⟩

/-- Every error gives the empty string. -/
def extractWorkDirFromConfig (loads : Loads) (configJson : String) : String :=
  match loads configJson with
  | .ok (.obj items) => match stripOrEmpty (dictGet items "work_dir" .null) with
    | .ok candidate => candidate
    | .error _ => ""
  | _ => ""

def resolveWorkDir (loads : Loads) (settings : EngineSettings) (requestWorkDir : Option String)
    (configJson : String) : String :=
  let candidate := strip (requestWorkDir.getD "")
  if candidate ≠ "" then candidate
  else
    let candidate := if configJson ≠ "" then extractWorkDirFromConfig loads configJson else ""
    if candidate ≠ "" then candidate else settings.cioWorkDir

/-- A process with the cache of its engines. The settings are fixed, and the calls of the engine's
package may go differently from build to build. -/
structure EngineFactory (Config : Type) where
  loads : Loads
  settings : EngineSettings
  sha256 : String → String
  cio : Nat → Cio Config

/-- What a call asks for. -/
structure EngineRequest where
  workDir : Option String
  configJson : Option String

namespace EngineFactory

def resolvedConfigJson (request : EngineRequest) : String := strip (request.configJson.getD "")

def resolvedWorkDir (F : EngineFactory Config) (request : EngineRequest) : String :=
  resolveWorkDir F.loads F.settings request.workDir (resolvedConfigJson request)

def cacheKey (F : EngineFactory Config) (request : EngineRequest) : String × String :=
  (F.resolvedWorkDir request, F.sha256 (resolvedConfigJson request))

def build (F : EngineFactory Config) (moment : Nat) (request : EngineRequest) :
    Except PyError (EnginePair Config) :=
  buildEngineAndScheduler (F.cio moment) F.loads F.settings moment (F.resolvedWorkDir request)
    (if resolvedConfigJson request = "" then none else some (resolvedConfigJson request))

/-- `get_engine_and_scheduler` and `clear_cache`. -/
def cache (F : EngineFactory Config) :
    Memo EngineRequest (String × String) (EnginePair Config) PyError where
  key := F.cacheKey
  build := F.build

/-- The directory that the text of the request names. -/
def ownWorkDir (F : EngineFactory Config) (request : EngineRequest) : String :=
  if resolvedConfigJson request = "" then ""
  else match F.loads (resolvedConfigJson request) with
    | .ok (.obj items) => strip (textOf (items.lookup "work_dir"))
    | _ => ""

/-- The documented order: the request, its configuration, the environment. -/
def directory (F : EngineFactory Config) (request : EngineRequest) : String :=
  if strip (request.workDir.getD "") ≠ "" then strip (request.workDir.getD "")
  else if F.ownWorkDir request ≠ "" then F.ownWorkDir request
  else F.settings.cioWorkDir

/-- Everything in the pair was made for this directory. -/
def BuiltOn (F : EngineFactory Config) (workDir : String) (pair : EnginePair Config) : Prop :=
  (∃ fields, (F.cio pair.built).fromDict fields = .ok pair.engine.config ∧
    fields.lookup "work_dir" = some (.str workDir)) ∧
  pair.engine.logger = ⟨workDir⟩ ∧ pair.engine.store = ⟨workDir⟩ ∧
  pair.scheduler = ⟨workDir, ⟨workDir⟩, ⟨workDir, ⟨workDir⟩⟩⟩

/-- `CIOConfig.from_dict` keeps the directory. -/
def Keeps (F : EngineFactory Config) : Prop := ∀ n fields config workDir,
  (F.cio n).fromDict fields = .ok config → fields.lookup "work_dir" = some (.str workDir) →
    (F.cio n).workDir config = workDir

end EngineFactory

theorem bind_ok {x : Except PyError α} {f : α → Except PyError β} {b : β} (h : x >>= f = .ok b) :
    ∃ a, x = .ok a ∧ f a = .ok b := by
  cases x with
  | error e => cases h
  | ok a => exact ⟨a, rfl, h⟩

theorem ite_ok {p : Prop} [Decidable p] {a b : α} {e : PyError}
    (h : (if p then .ok a else .error e : Except PyError α) = .ok b) : a = b := by
  split at h
  · exact Except.ok.inj h
  · cases h

theorem merge_workDir {settings : EngineSettings} {parsed merged : List (String × Json)}
    {workDir : String} (h : mergeWithEnvDefaults settings parsed workDir = .ok merged) :
    merged.lookup "work_dir" = some (.str workDir) := by
  obtain ⟨model, _, h⟩ := bind_ok h
  obtain ⟨apiKey, _, h⟩ := bind_ok h
  obtain rfl := ite_ok h
  rw [lookup_dictSet, if_neg (by decide), lookup_dictSet, if_neg (by decide), lookup_dictSet,
    if_pos rfl]

theorem requestDict_workDir {loads : Loads} {settings : EngineSettings}
    {merged : List (String × Json)}
    {workDir configJson : String} (h : requestDict loads settings workDir configJson = .ok merged) :
    merged.lookup "work_dir" = some (.str workDir) := by
  unfold requestDict at h
  split at h
  · cases h
  · cases h
  · exact merge_workDir h
  · cases h

/-- On all three branches the dictionary names the directory. -/
theorem loadConfig_dict {cio : Cio Config} {loads : Loads} {settings : EngineSettings}
    {workDir : String}
    {configJson : Option String} {config : Config}
    (h : loadConfig cio loads settings workDir configJson = .ok config) :
    ∃ fields, cio.fromDict fields = .ok config ∧
      fields.lookup "work_dir" = some (.str workDir) := by
  unfold loadConfig at h
  split at h
  · obtain ⟨merged, hmerged, h⟩ := bind_ok h
    exact ⟨merged, h, requestDict_workDir hmerged⟩
  · split at h
    · obtain ⟨base, _, h⟩ := bind_ok h
      obtain ⟨fields, _, h⟩ := bind_ok h
      refine ⟨_, h, ?_⟩
      rw [lookup_dictSet, if_pos rfl]
    · exact ⟨_, h, rfl⟩

theorem makeScheduler_eq {cio : Cio Config} {workDir : String} {scheduler : Scheduler}
    (h : makeScheduler cio workDir = .ok scheduler) :
    scheduler = ⟨workDir, ⟨workDir⟩, ⟨workDir, ⟨workDir⟩⟩⟩ := by
  obtain ⟨_, _, h⟩ := bind_ok h
  obtain ⟨_, _, h⟩ := bind_ok h
  obtain ⟨_, _, h⟩ := bind_ok h
  exact (Except.ok.inj h).symm

/-- What a build gives. -/
theorem build_cases {cio : Cio Config} {loads : Loads} {settings : EngineSettings} {moment : Nat}
    {workDir : String} {configJson : Option String} {pair : EnginePair Config}
    (h : buildEngineAndScheduler cio loads settings moment workDir configJson = .ok pair) :
    ∃ config, loadConfig cio loads settings workDir configJson = .ok config ∧
      pair = ⟨moment, ⟨config, ⟨cio.workDir config⟩, ⟨cio.workDir config⟩, ⟨cio.apiKey config⟩⟩,
        ⟨cio.workDir config, ⟨cio.workDir config⟩,
          ⟨cio.workDir config, ⟨cio.workDir config⟩⟩⟩⟩ := by
  obtain ⟨config, hconfig, h⟩ := bind_ok h
  obtain ⟨_, _, h⟩ := bind_ok h
  obtain ⟨_, _, h⟩ := bind_ok h
  obtain ⟨_, _, h⟩ := bind_ok h
  obtain ⟨_, _, h⟩ := bind_ok h
  obtain ⟨_, _, h⟩ := bind_ok h
  obtain ⟨scheduler, hscheduler, h⟩ := bind_ok h
  obtain rfl := makeScheduler_eq hscheduler
  exact ⟨config, hconfig, (Except.ok.inj h).symm⟩

/-- A value that is no text counts as blank. -/
theorem strip_of_not_text {v : Json} (h : ¬(v = .null ∨ ∃ s, v = .str s)) :
    textOf (some v) = "" ∧ (stripOrEmpty v = .ok "" ∨ ∃ e, stripOrEmpty v = .error e) := by
  have htext : textOf (some v) = "" := by
    cases v with
    | str s => exact absurd (.inr ⟨s, rfl⟩) h
    | _ => rfl
  refine ⟨htext, ?_⟩
  unfold stripOrEmpty Json.or
  split
  · rename_i s hs
    split at hs
    · exact absurd (.inr ⟨s, hs⟩) h
    · obtain rfl := Json.str.inj hs
      exact .inl (congrArg Except.ok strip_empty)
  · exact .inr ⟨_, rfl⟩

theorem extractWorkDir_eq (loads : Loads) (configJson : String) :
    extractWorkDirFromConfig loads configJson = match loads configJson with
      | .ok (.obj items) => strip (textOf (items.lookup "work_dir"))
      | _ => "" := by
  unfold extractWorkDirFromConfig
  split
  · rename_i items _
    rw [dictGet]
    cases hv : items.lookup "work_dir" with
    | none => rfl
    | some v =>
      by_cases htext : v = .null ∨ ∃ s, v = .str s
      · rw [Option.getD_some, stripOrEmpty_eq htext]
      · obtain ⟨htext, hok | ⟨e, he⟩⟩ := strip_of_not_text htext
        · rw [Option.getD_some, hok, htext, strip_empty]
        · rw [Option.getD_some, he, htext, strip_empty]
  · rfl

namespace EngineFactory
variable {F : EngineFactory Config} {request request' : EngineRequest} {n : Nat}
  {pair : EnginePair Config}

theorem resolvedWorkDir_eq (F : EngineFactory Config) (request : EngineRequest) :
    F.resolvedWorkDir request = F.directory request := by
  have hown : (if resolvedConfigJson request ≠ "" then
      extractWorkDirFromConfig F.loads (resolvedConfigJson request) else "") =
        F.ownWorkDir request := by
    rw [ownWorkDir, extractWorkDir_eq]
    by_cases h : resolvedConfigJson request = ""
    · rw [if_neg (not_not_intro h), if_pos h]
    · rw [if_pos h, if_neg h]
  rw [resolvedWorkDir, resolveWorkDir, hown, directory]

theorem builtOn_of_build (hF : F.Keeps) (h : F.build n request = .ok pair) :
    F.BuiltOn (F.resolvedWorkDir request) pair := by
  obtain ⟨config, hconfig, rfl⟩ := build_cases h
  obtain ⟨fields, hfields, hdir⟩ := loadConfig_dict hconfig
  have hkeep := hF n fields config _ hfields hdir
  exact ⟨⟨fields, hfields, hdir⟩, by rw [hkeep], by rw [hkeep], by rw [hkeep]⟩

theorem fresh_cache (F : EngineFactory Config) : F.cache.Fresh := by
  intro n n' q q' v h h'
  obtain ⟨_, _, rfl⟩ := build_cases h
  obtain ⟨_, _, heq⟩ := build_cases h'
  exact congrArg EnginePair.built heq

/-- A build depends on no more of a request than what is in the key. -/
theorem build_congr (hdir : F.resolvedWorkDir request = F.resolvedWorkDir request')
    (hconfig : resolvedConfigJson request = resolvedConfigJson request') :
    F.build n request = F.build n request' := by
  rw [build, build, hdir, hconfig]

theorem directory_of_key (h : F.cacheKey request = F.cacheKey request') :
    F.resolvedWorkDir request = F.resolvedWorkDir request' := by
  rw [cacheKey, cacheKey, Prod.mk.injEq] at h
  exact h.1

theorem key_eq_iff (hsha : Function.Injective F.sha256) :
    F.cacheKey request = F.cacheKey request' ↔
      F.resolvedWorkDir request = F.resolvedWorkDir request' ∧
        resolvedConfigJson request = resolvedConfigJson request' := by
  rw [cacheKey, cacheKey, Prod.mk.injEq, hsha.eq_iff]

/-- Every pair that is given out was made for the directory that the documented order gives. -/
theorem directory_law {Config : Type} (F : EngineFactory Config) (hF : F.Keeps)
    (calls : List (Call EngineRequest)) (n : Nat) (request : EngineRequest)
    (pair : EnginePair Config) (h : F.cache.Returns calls n request pair) :
    F.BuiltOn (F.directory request) pair := by
  obtain ⟨n', _, request', _, hkey, hbuild⟩ := Memo.built_of_returns h
  rw [← resolvedWorkDir_eq, ← directory_of_key hkey]
  exact builtOn_of_build hF hbuild

/-- The cache stands between its callers and the builds without showing. -/
theorem cache_law {Config : Type} (F : EngineFactory Config) (hsha : Function.Injective F.sha256)
    (calls : List (Call EngineRequest)) :
    (∀ n request pair, F.cache.Returns calls n request pair →
      ∃ n' ≤ n, F.build n' request = .ok pair) ∧
    (∀ n n' request request' pair, F.cache.Returns calls n request pair →
      F.cache.Returns calls n' request' pair →
        F.resolvedWorkDir request = F.resolvedWorkDir request' ∧
          resolvedConfigJson request = resolvedConfigJson request') ∧
    (∀ n n' request request' pair pair', F.cache.Returns calls n request pair →
      F.cache.Returns calls n' request' pair' →
      F.resolvedWorkDir request = F.resolvedWorkDir request' →
      resolvedConfigJson request = resolvedConfigJson request' → n < n' →
      (∀ i, n < i → i < n' → calls[i]? ≠ some .clear) → pair = pair') ∧
    (∀ n request e, F.cache.Raises calls n request e →
      F.cache.cacheAt calls (n + 1) = F.cache.cacheAt calls n) ∧
    ∀ n n' request e, F.cache.Raises calls n request e → n < n' →
      (∀ i request' pair, n < i → i < n' → F.cacheKey request' = F.cacheKey request →
        ¬F.cache.Returns calls i request' pair) →
      (F.cache.get n' request (F.cache.cacheAt calls n')).1 = F.build n' request := by
  refine ⟨fun n request pair h => ?_, fun n n' request request' pair h h' => ?_,
    fun n n' request request' pair pair' h h' hdir hconfig => ?_,
    fun n request e h => Memo.cacheAt_of_raises h, fun n n' request e h hn hget => ?_⟩
  · obtain ⟨n', hn, request', _, hkey, hbuild⟩ := Memo.built_of_returns h
    obtain ⟨hdir, hconfig⟩ := (key_eq_iff hsha).1 hkey
    exact ⟨n', hn, (build_congr hdir hconfig).symm.trans hbuild⟩
  · exact (key_eq_iff hsha).1 (Memo.key_eq_of_returns F.fresh_cache h h')
  · have hkey : F.cache.key request = F.cache.key request' := (key_eq_iff hsha).2 ⟨hdir, hconfig⟩
    exact Memo.eq_of_returns h h' hkey
  · exact Memo.builds_again (m := F.cache) h hn hget

end EngineFactory

end

/-- A package in which every call succeeds. A configuration is its dictionary. -/
def plainCio : Cio (List (String × Json)) where
  fromDict := .ok
  fromYaml _ := .ok []
  toDict := .ok
  validate _ := .ok ()
  workDir fields := textOf (fields.lookup "work_dir")
  apiKey fields := textOf (fields.lookup "api_key")
  cioLogger _ _ := .ok ()
  projectStore _ _ := .ok ()
  projectNamer _ := .ok ()
  workflowEngine _ := .ok ()
  stateTracker _ := .ok ()

def plainFactory : EngineFactory (List (String × Json)) where
  loads := ownModel
  settings := someSettings
  sha256 := id
  cio _ := plainCio

theorem plainFactory_keeps : plainFactory.Keeps := by
  intro n fields config workDir h hdir
  obtain rfl := Except.ok.inj h
  exact congrArg textOf hdir

def plainPair (built : Nat) (workDir : String) : EnginePair (List (String × Json)) :=
  ⟨built, ⟨envConfig someSettings workDir, ⟨workDir⟩, ⟨workDir⟩, ⟨"sk-env"⟩⟩,
    ⟨workDir, ⟨workDir⟩, ⟨workDir, ⟨workDir⟩⟩⟩⟩

/-- The second request names the directory of the first, with spaces around it. -/
def twoCalls : List (Call EngineRequest) := [.get ⟨some "a", none⟩, .get ⟨some " a ", none⟩]

theorem twoCalls_returns :
    plainFactory.cache.Returns twoCalls 1 ⟨some " a ", none⟩ (plainPair 0 "a") :=
  ⟨rfl, rfl⟩

theorem directory_law_padded :
    plainFactory.BuiltOn (plainFactory.directory ⟨some " a ", none⟩) (plainPair 0 "a") :=
  EngineFactory.directory_law plainFactory plainFactory_keeps twoCalls 1 _ _ twoCalls_returns

theorem cache_law_padded :
    ∃ n' ≤ 1, plainFactory.build n' ⟨some " a ", none⟩ = .ok (plainPair 0 "a") :=
  (EngineFactory.cache_law plainFactory Function.injective_id twoCalls).1 1 _ _ twoCalls_returns

end Orchestrator
