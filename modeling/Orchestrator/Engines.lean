import Orchestrator.Decision
import Orchestrator.EngineFactory

namespace Orchestrator
open Concurrency Async Python Caching
set_option autoImplicit true

deriving instance DecidableEq for EngineRequest

/-- What a worker asks of the factory for its task. -/
def Task.engineRequest (t : Task) : EngineRequest := ⟨orNone t.workDir, orNone t.configJson⟩

/-- The task that a worker has taken from the queue, and the request that the factory has answered
with an engine since then. -/
structure Equipment where
  task : Option Task
  request : Option EngineRequest

/-- The factory is asked for what the task says, and the checks and the stream come after it has
answered. -/
def Equipped (d : Equipment) : (c : Cmd Text Event) → c.Answer → Prop
  | .factoryGet workDir configJson, _ => ∃ t ∈ d.task, t.engineRequest = ⟨workDir, configJson⟩
  | .projectExists _, _ | .setProjectName _, _ | .checkpointExists _, _ | .iterEvents .., _ =>
    ∃ t ∈ d.task, d.request = some t.engineRequest
  | _, _ => True

/-- Commands that need no engine and get none. -/
def Cmd.unaided : Cmd Text Event → Bool
  | .brpop | .factoryGet .. | .projectExists _ | .setProjectName _ | .checkpointExists _
  | .iterEvents .. => false
  | _ => true

/-- Commands that an engine outlasts. -/
def Cmd.aided : Cmd Text Event → Bool
  | .brpop | .factoryGet .. => false
  | _ => true

theorem equipped_of_unaided {c : Cmd Text Event} (hc : c.unaided = true) (d : Equipment)
    (r : c.Answer) : Equipped d c r := by
  cases c with
  | brpop | factoryGet _ _ | projectExists _ | setProjectName _ | checkpointExists _
  | iterEvents _ _ _ => cases hc
  | _ => trivial

theorem equipped_of_aided {c : Cmd Text Event} (hc : c.aided = true) (t : Task)
    (r : c.Answer) : Equipped ⟨some t, some t.engineRequest⟩ c r := by
  cases c with
  | brpop | factoryGet _ _ => cases hc
  | projectExists _ | setProjectName _ | checkpointExists _ | iterEvents _ _ _ =>
    exact ⟨t, rfl, rfl⟩
  | _ => trivial

theorem aided_of_unaided {c : Cmd Text Event} (hc : c.unaided = true) : c.aided = true := by
  cases c with
  | brpop | factoryGet _ _ => cases hc
  | _ => rfl

namespace Equipment
variable {S : Setup Event}

/-- What is left of an execution needs no engine. -/
abbrev Unaided (p : Py Text Event σ α) : Prop := Asks (fun c => c.unaided = true) p

abbrev Aided (p : Py Text Event σ α) : Prop := Asks (fun c => c.aided = true) p

theorem unaided_ask {c : Cmd Text Event} (hc : c.unaided = true) :
    Unaided (ask c : Py Text Event σ c.Reply) := asks hc

theorem aided_ask {c : Cmd Text Event} (hc : c.aided = true) :
    Aided (ask c : Py Text Event σ c.Reply) := asks hc

theorem aided {p : Py Text Event σ α} (hp : Unaided p) : Aided p :=
  hp.mono fun _ => aided_of_unaided

theorem unaided_close : Unaided (Worker.close : Py Text Event Task _) :=
  within_bind within_object fun _ => unaided_ask rfl

theorem unaided_transition (st : TaskStatus) (detail : String) :
    Unaided (Worker.transition st detail : Py Text Event Task _) :=
  within_bind (unaided_ask rfl) fun _ => within_mutate _

theorem unaided_cleanUp (p τ : String) :
    Unaided (Worker.cleanUp p τ : Py Text Event Task _) :=
  asks_cleanUp (fun _ => rfl) (fun _ => rfl) (fun _ _ => rfl) p τ

theorem aided_check {p : Py Text Event Task Bool} (hp : Aided p) : Aided (Scheduler.check p) := by
  apply within_bind (within_attempt hp)
  intro o
  cases o with
  | ok b => exact within_pure b
  | error e =>
    dsimp only
    split
    · exact within_pure _
    · exact within_raise e

theorem aided_apply (mode : TaskMode) :
    Aided (Scheduler.apply mode : Py Text Event Task _) :=
  within_bind (aided_ask rfl) fun _ => within_bind (within_mutate _) fun _ => within_pure _

theorem aided_decide : Aided (Scheduler.decide S : Py Text Event Task _) := by
  have hcheckpoint (project : String) :
      Aided (Scheduler.hasCheckpoint project : Py Text Event Task _) :=
    aided_check (within_bind (aided_ask rfl) fun _ => aided_ask rfl)
  apply within_bind within_object
  intro t
  split
  · apply within_bind (hcheckpoint _)
    intro b
    split
    · exact aided_apply _
    · exact within_raise _
  · apply within_bind (aided_check (aided_ask rfl))
    intro b
    split
    · apply within_bind (hcheckpoint _)
      intro b
      split
      · exact aided_apply _
      · exact aided_apply _
    · exact aided_apply _

theorem aided_stream (mode : TaskMode) :
    Aided (Worker.stream S mode : Py Text Event Task _) := by
  apply within_bind within_object
  intro t
  apply within_bind (aided_ask rfl)
  intro it
  apply within_bind (aided_ask rfl)
  intro n
  apply within_bind (within_attempt (aided_ask rfl))
  intro o
  cases o with
  | ok _ => exact within_pure _
  | error e =>
    dsimp only
    split
    · exact within_raise _
    · exact within_raise _

end Equipment

/-- The calls of the factory since the start of the process, the earliest first. -/
def factoryCalls : List (SysLabel Text Event) → List (Caching.Call EngineRequest)
  | [] => []
  | .cmd _ (.factoryGet workDir configJson) _ :: tr =>
    factoryCalls tr ++ [.get ⟨workDir, configJson⟩]
  | .halt :: _ => []
  | _ :: tr => factoryCalls tr

section
variable {Config : Type}

/-- What the factory gives to the next call. -/
def EngineFactory.next (F : EngineFactory Config) (calls : List (Caching.Call EngineRequest))
    (request : EngineRequest) : Except PyError (EnginePair Config) :=
  (F.cache.get calls.length request (F.cache.cacheAt calls calls.length)).1

/-- The pair that process `i` was given last. -/
def engineOf (F : EngineFactory Config) (i : Nat) :
    List (SysLabel Text Event) → Option (EnginePair Config)
  | [] => none
  | .cmd j (.factoryGet workDir configJson) _ :: tr =>
    if j = i then (F.next (factoryCalls tr) ⟨workDir, configJson⟩).toOption else engineOf F i tr
  | .halt :: _ => none
  | _ :: tr => engineOf F i tr

/-- A call of the factory, and whether it gave an engine. -/
def factoryGot : SysLabel Text Event → Option (EngineRequest × Bool)
  | .cmd _ (.factoryGet workDir configJson) r => some (⟨workDir, configJson⟩, r.isOk)
  | _ => none

/-- The workers' factory is this one, with the cache of the process. -/
def furnished (F : EngineFactory Config) : Filter Text Event := fun tr _ l _ =>
  ∀ q ∈ factoryGot l, q.2 = (F.next (factoryCalls tr) q.1).isOk

/-- The factory has given process `i` an engine for the request. -/
def Supplied (F : EngineFactory Config) (i : Nat) (tr : List (SysLabel Text Event))
    (request : EngineRequest) : Prop :=
  ∃ n pair, engineOf F i tr = some pair ∧ F.cache.Returns (factoryCalls tr) n request pair

variable {F : EngineFactory Config} {tr : List (SysLabel Text Event)} {i : Nat}
  {request : EngineRequest}

theorem Supplied.later {l : SysLabel Text Event} (h : Supplied F i tr request)
    (he : engineOf F i (l :: tr) = engineOf F i tr)
    (hc : factoryCalls (l :: tr) = factoryCalls tr) : Supplied F i (l :: tr) request := by
  rw [Supplied, he, hc]
  exact h

theorem Supplied.call {j : Nat} {workDir configJson : Option String} {r : Except Exc Unit}
    (h : Supplied F i tr request) (hj : j ≠ i) :
    Supplied F i (.cmd j (.factoryGet workDir configJson) r :: tr) request := by
  obtain ⟨n, pair, he, hret⟩ := h
  refine ⟨n, pair, ?_, hret.append _⟩
  rw [engineOf, if_neg hj, he]

theorem supplied_call {workDir configJson : Option String} {r : Except Exc Unit}
    (hok : (F.next (factoryCalls tr) ⟨workDir, configJson⟩).isOk = true) :
    Supplied F i (.cmd i (.factoryGet workDir configJson) r :: tr) ⟨workDir, configJson⟩ := by
  cases hn : F.next (factoryCalls tr) ⟨workDir, configJson⟩ with
  | error e =>
    rw [hn] at hok
    cases hok
  | ok pair =>
    refine ⟨(factoryCalls tr).length, pair, ?_, ?_, ?_⟩
    · rw [engineOf, if_pos rfl, hn]
      rfl
    · exact List.getElem?_concat_length
    · rw [factoryCalls, Memo.cacheAt_append (Nat.le_refl _)]
      exact hn

theorem factoryCalls_ne_clear (tr : List (SysLabel Text Event)) (n : Nat) :
    (factoryCalls tr)[n]? ≠ some .clear := by
  suffices h : Caching.Call.clear ∉ factoryCalls tr from fun hn => h (List.mem_of_getElem? hn)
  induction tr with
  | nil => exact List.not_mem_nil
  | cons l tr ih =>
    cases l with
    | cmd _ c _ =>
      cases c with
      | factoryGet _ _ =>
        rw [factoryCalls, List.mem_append, List.mem_singleton]
        rintro (h | h)
        · exact ih h
        · cases h
      | _ => exact ih
    | halt => exact List.not_mem_nil
    | _ => exact ih

/-- Requests with one key are given one pair. -/
theorem eq_of_key {n n' : Nat} {request' : EngineRequest} {pair pair' : EnginePair Config}
    (h : F.cache.Returns (factoryCalls tr) n request pair)
    (h' : F.cache.Returns (factoryCalls tr) n' request' pair')
    (hkey : F.cacheKey request = F.cacheKey request') : pair = pair' := by
  obtain hn | rfl | hn := Nat.lt_trichotomy n n'
  · exact Memo.eq_of_returns h h' hkey hn fun i _ _ => factoryCalls_ne_clear tr i
  · cases h.1.symm.trans h'.1
    exact Except.ok.inj (h.2.symm.trans h'.2)
  · exact (Memo.eq_of_returns h' h hkey.symm hn fun i _ _ => factoryCalls_ne_clear tr i).symm

theorem Supplied.shared {j : Nat} {request' : EngineRequest} (hsha : Function.Injective F.sha256)
    (h : Supplied F i tr request) (h' : Supplied F j tr request') :
    engineOf F i tr = engineOf F j tr ↔ F.directory request = F.directory request' ∧
      EngineFactory.resolvedConfigJson request = EngineFactory.resolvedConfigJson request' := by
  obtain ⟨n, pair, he, hret⟩ := h
  obtain ⟨n', pair', he', hret'⟩ := h'
  rw [he, he', Option.some.injEq, ← EngineFactory.resolvedWorkDir_eq,
    ← EngineFactory.resolvedWorkDir_eq, ← EngineFactory.key_eq_iff hsha]
  refine ⟨?_, eq_of_key hret hret'⟩
  rintro rfl
  exact Memo.key_eq_of_returns F.fresh_cache hret hret'

end

section
variable [TaskJson Text]

def Equipment.after (d : Equipment) : (c : Cmd Text Event) → c.Answer → Equipment
  | .brpop, .ok (some x) => ⟨parse x, none⟩
  | .factoryGet workDir configJson, .ok _ => { d with request := some ⟨workDir, configJson⟩ }
  | .factoryGet .., .error _ => { d with request := none }
  | _, _ => d

def equipment (Text : Type) [TaskJson Text] (Event : Type) :
    Monitor (Cmd Text Event) Cmd.Answer Equipment where
  init := ⟨none, none⟩
  cmd := Equipment.after
  abort := Equipment.after

theorem equipment_of_aided {c : Cmd Text Event} (hc : c.aided = true) (d : Equipment)
    (r : c.Answer) : d.after c r = d := by
  cases c with
  | brpop | factoryGet _ _ => cases hc
  | _ => rfl

abbrev outfitting (Text : Type) [TaskJson Text] (S : Setup Event)
    (sp : Kind → World Text Event → World Text Event → Prop)
    (ex : Kind → Except Exc Returned → World Text Event → World Text Event → Option Kind → Prop) :
    Assertion (orchestrator Text S sp ex) Equipment :=
  (equipment Text Event).demanding (orchestrator Text S sp ex) Equipped

namespace Equipment
variable {S : Setup Event} {sp : Kind → World Text Event → World Text Event → Prop}
  {ex : Kind → Except Exc Returned → World Text Event → World Text Event → Option Kind → Prop}
  {i : Nat} {d : Equipment} {t : Task}

theorem unaided_update : Unaided (Worker.update S : Py Text Event Task _) :=
  within_bind within_object fun t => asks_asyncUpdate t rfl fun _ => rfl

theorem unaided_reject (detail : String) :
    Unaided (Worker.reject S detail : Py Text Event Task _) :=
  within_bind (unaided_transition _ _) fun _ =>
    within_bind unaided_update fun _ => unaided_close

theorem unaided_handleRetriable (exc : Exc) :
    Unaided (Worker.handleRetriable S exc : Py Text Event Task _) := by
  apply within_bind within_object
  intro t
  split
  · apply within_bind (within_mutate _)
    intro _
    apply within_bind (unaided_transition _ _)
    intro _
    apply within_bind unaided_update
    exact fun _ => within_bind within_object fun _ => unaided_ask rfl
  · exact unaided_reject _

theorem aided_attemptStream (mode : TaskMode) :
    Aided (Worker.attemptStream S mode : Py Text Event Task _) := by
  apply within_bind
  · apply within_attempt
    apply within_bind (aided_stream mode)
    intro _
    apply within_bind (aided (unaided_transition _ _))
    exact fun _ => aided unaided_update
  · intro o
    cases o with
    | ok _ => exact aided unaided_close
    | error e =>
      dsimp only
      split
      · exact aided (unaided_reject _)
      · apply within_bind (aided unaided_close)
        exact fun _ => aided (unaided_handleRetriable e)
      · exact within_raise e
      · exact within_raise e
      · apply within_bind (aided (unaided_transition _ _))
        intro _
        apply within_bind (aided unaided_update)
        intro _
        exact within_bind (aided unaided_close) fun _ => within_raise e
      · exact aided (unaided_reject _)

/-- What comes after the factory has answered. -/
theorem aided_started :
    Aided (do
      match ← attempt (Scheduler.decide S) with
      | .error exc => if exc.cls = .value then Worker.reject S exc.msg else raise exc
      | .ok mode =>
        Worker.transition .running s!"mode={mode.value}"
        Worker.update S
        Worker.attemptStream S mode : Py Text Event Task Unit) := by
  apply within_bind (within_attempt aided_decide)
  intro o
  cases o with
  | error e =>
    dsimp only
    split
    · exact aided (unaided_reject _)
    · exact within_raise e
  | ok mode =>
    apply within_bind (aided (unaided_transition _ _))
    intro _
    exact within_bind (aided unaided_update) fun _ => aided_attemptStream mode

theorem frames_aided : (outfitting Text S sp ex).Frames i
    (fun c : Cmd Text Event => c.aided = true) ⟨some t, some t.engineRequest⟩ := by
  apply Monitor.frames_demanding
  · exact fun c r hc => equipped_of_aided hc t r
  · exact fun c r hc => equipment_of_aided hc _ r
  · exact fun c r hc => equipment_of_aided hc _ r

theorem frames_unaided : (outfitting Text S sp ex).Frames i
    (fun c : Cmd Text Event => c.unaided = true) d := by
  apply Monitor.frames_demanding
  · exact fun c r hc => equipped_of_unaided hc d r
  · exact fun c r hc => equipment_of_aided (aided_of_unaided hc) d r
  · exact fun c r hc => equipment_of_aided (aided_of_unaided hc) d r

theorem wp_unaided {p : Py Text Event σ α} {s : σ} (hp : Unaided p) :
    Wp (outfitting Text S sp ex) i p (fun _ _ _ => True) (fun _ _ _ => True) s d :=
  Wp.mono (Wp.of_within hp frames_unaided) (fun _ _ _ _ => trivial) fun _ _ _ _ => trivial

theorem wp_ask {c : Cmd Text Event} {Q : c.Reply → σ → Equipment → Prop}
    {X : Exc → σ → Equipment → Prop} {s : σ} (hd : ∀ r, Equipped d c r)
    (hQ : ∀ a, Q a s (d.after c (.ok a))) (hX : ∀ e, X e s (d.after c (.error e))) :
    Wp (outfitting Text S sp ex) i (ask c) Q X s d := by
  have hout (r : c.Answer) : Outcome Q X (r, s) (d.after c r) := by
    cases r with
    | ok a => exact hQ a
    | error e => exact hX e
  exact Monitor.wp_demanded hd (fun r _ _ _ => hout r) fun r _ _ _ => hout r

theorem wp_runLocked :
    Wp (outfitting Text S sp ex) i (Worker.runLocked S) (fun _ _ _ => True) (fun _ _ _ => True) t
      ⟨some t, none⟩ := by
  apply Wp.bind
  apply Wp.object
  apply Wp.bind
  apply Wp.attempt
  apply wp_ask
  · exact fun _ => ⟨t, rfl, rfl⟩
  · exact fun _ => Wp.mono (Wp.of_within aided_started frames_aided) (fun _ _ _ _ => trivial)
      fun _ _ _ _ => trivial
  · intro e
    dsimp only
    split
    · exact wp_unaided (unaided_reject _)
    · exact Wp.raise _ trivial

theorem wp_execute :
    Wp (outfitting Text S sp ex) i (Worker.execute S) (fun _ _ _ => True) (fun _ _ _ => True) t
      ⟨some t, none⟩ := by
  have hguarded : Wp (outfitting Text S sp ex) i (Worker.guarded S) (fun _ _ _ => True)
      (fun _ _ _ => True) t ⟨some t, none⟩ := by
    apply Wp.bind
    apply Wp.attempt
    apply Wp.mono wp_runLocked
    · exact fun _ _ _ _ => Wp.pure _ trivial
    · intro e s d _
      dsimp only
      split
      · exact wp_unaided (within_bind within_object fun _ =>
          within_bind (unaided_ask rfl) fun _ => unaided_handleRetriable _)
      · exact Wp.raise _ trivial
  apply Wp.bind
  apply Wp.object
  apply Wp.bind
  apply wp_ask
  · exact fun _ => trivial
  · intro τ
    apply Wp.bind
    apply wp_ask
    · exact fun _ => trivial
    · intro acquired
      split
      · apply Wp.bind
        apply wp_ask
        · exact fun _ => trivial
        · intro _
          apply Wp.ensure
          apply Wp.mono hguarded
          · exact fun _ s d _ => wp_unaided (unaided_cleanUp _ _)
          · exact fun _ s d _ => wp_unaided (unaided_cleanUp _ _)
        · exact fun _ => trivial
      · exact wp_unaided (within_bind (unaided_ask rfl) fun _ =>
          within_bind (unaided_ask rfl) fun _ => unaided_ask rfl)
    · exact fun _ => trivial
  · exact fun _ => trivial

theorem wp_turn {s : Unit} :
    Wp (outfitting Text S sp ex) i (Worker.turn S) (fun _ _ _ => True) (fun _ _ _ => True) s d := by
  apply Wp.bind
  apply Wp.bind
  apply wp_ask
  · exact fun _ => trivial
  · intro o
    cases o with
    | none => exact Wp.pure _ (Wp.pure _ trivial)
    | some x =>
      apply Wp.pure
      show Wp _ _ _ _ _ _ (Equipment.mk (parse x) none)
      cases parse x with
      | none => exact Wp.pure _ trivial
      | some t => exact Wp.on t wp_execute
  · exact fun _ => trivial

theorem unaided_of_recovery {c : Cmd Text Event} (h : c.recovery) : c.unaided = true := by
  cases c with
  | brpop | factoryGet _ _ | projectExists _ | setProjectName _ | checkpointExists _
  | iterEvents _ _ _ => exact absurd h.2 not_false
  | _ => rfl

theorem unaided_of_request {c : Cmd Text Event} (h : c.request) : c.unaided = true := by
  cases c with
  | brpop | factoryGet _ _ | projectExists _ | setProjectName _ | checkpointExists _
  | iterEvents _ _ _ => exact absurd h.2 not_false
  | _ => rfl

theorem safe_body (q : Kind) :
    Safe (outfitting Text S sp ex) i (fun _ _ => True) ((orchestrator Text S sp ex).body q)
      ⟨none, none⟩ := by
  apply Wp.start
  cases q with
  | recover =>
    apply wp_unaided
    exact within_bind (asks_recoverStrandedTasks.mono fun _ => unaided_of_recovery)
      fun _ => within_pure _
  | worker =>
    apply Wp.bind
    exact Wp.mono wp_turn (fun _ _ _ _ => Wp.pure _ trivial) fun _ _ _ h => h
  | request body =>
    apply wp_unaided
    exact within_bind ((asks_createTask body).mono fun _ => unaided_of_request)
      fun _ => within_pure _

end Equipment

variable {Config : Type} {F : EngineFactory Config} {tr : List (SysLabel Text Event)} {i : Nat}
  {request : EngineRequest}

theorem read_of_aided {c : Cmd Text Event} (hc : c.aided = true) (i j : Nat) (r : c.Answer)
    (tr : List (SysLabel Text Event)) :
    (equipment Text Event).read i (.cmd j c r :: tr) = (equipment Text Event).read i tr := by
  rw [Monitor.read, show (equipment Text Event).cmd _ c r = _ from equipment_of_aided hc _ r,
    ite_self]

theorem supplied_cmd {c : Cmd Text Event} {j : Nat} {r : c.Answer} {w w' : World Text Event}
    (hok : furnished F tr w (.cmd j c r) w')
    (ih : ∀ request, ((equipment Text Event).read i tr).request = some request →
      Supplied F i tr request)
    (hq : ((equipment Text Event).read i (.cmd j c r :: tr)).request = some request) :
    Supplied F i (.cmd j c r :: tr) request := by
  cases c with
  | factoryGet workDir configJson =>
    rw [Monitor.read] at hq
    split at hq
    · rename_i hj
      subst hj
      cases r with
      | ok _ =>
        obtain rfl := Option.some.inj hq
        exact supplied_call (hok _ rfl).symm
      | error _ => cases hq
    · rename_i hj
      exact (ih _ hq).call hj
  | brpop =>
    rw [Monitor.read] at hq
    split at hq
    · cases r with
      | ok o =>
        cases o with
        | none => exact (ih _ hq).later rfl rfl
        | some x => cases hq
      | error e => exact (ih _ hq).later rfl rfl
    · exact (ih _ hq).later rfl rfl
  | _ =>
    rw [read_of_aided rfl] at hq
    exact (ih _ hq).later rfl rfl

theorem supplied_abort {c : Cmd Text Event} {j : Nat} {e : Exc}
    (ih : ∀ request, ((equipment Text Event).read i tr).request = some request →
      Supplied F i tr request)
    (hq : ((equipment Text Event).read i (.abort j c (.error e) :: tr)).request = some request) :
    Supplied F i (.abort j c (.error e) :: tr) request := by
  rw [Monitor.read] at hq
  split at hq
  · cases c with
    | factoryGet _ _ => cases hq
    | _ => exact (ih _ hq).later rfl rfl
  · exact (ih _ hq).later rfl rfl

/-- Whenever the factory has answered a worker, it has given it an engine. -/
theorem supplied_of_run {S : Setup Event} {s : SysConfig Text Event}
    (hr : Run (system Text S) (furnished F) (.idle .init) tr s)
    (hq : ((equipment Text Event).read i tr).request = some request) :
    Supplied F i tr request := by
  induction hr generalizing request with
  | nil => cases hq
  | cons hr hs hok ih =>
    cases hs with
    | env _ => exact (ih hq).later rfl rfl
    | halt _ => cases hq
    | spawn _ _ | exit _ _ =>
      rw [Monitor.read] at hq
      split at hq
      · cases hq
      · exact (ih hq).later rfl rfl
    | answer _ ha =>
      cases ha with
      | cmd _ => exact supplied_cmd hok (fun _ => ih) hq
      | abort h =>
        obtain ⟨e, rfl, -⟩ := h
        exact supplied_abort (fun _ => ih) hq

/-- The engine of every attempt is that of its own task. -/
structure EngineLaw (F : EngineFactory Config) (tr : List (SysLabel Text Event)) : Prop where
  asked : (equipment Text Event).Meets Equipped tr
  built : ∀ i request, ((equipment Text Event).read i tr).request = some request →
    ∃ pair, engineOf F i tr = some pair ∧ F.BuiltOn (F.directory request) pair
  shared : ∀ i j request request', ((equipment Text Event).read i tr).request = some request →
    ((equipment Text Event).read j tr).request = some request' →
    (engineOf F i tr = engineOf F j tr ↔ F.directory request = F.directory request' ∧
      EngineFactory.resolvedConfigJson request = EngineFactory.resolvedConfigJson request')

theorem engine_law {S : Setup Event} {s : SysConfig Text Event} (hF : F.Keeps)
    (hsha : Function.Injective F.sha256)
    (hr : Run (system Text S) (furnished F) (.idle .init) tr s) : EngineLaw F tr where
  asked := (Monitor.meets_of_run (fun _ q => Equipment.safe_body q) hr).1
  built i request hq := by
    obtain ⟨n, pair, he, hret⟩ := supplied_of_run hr hq
    obtain ⟨n', _, request', _, hkey, hbuild⟩ := Memo.built_of_returns hret
    refine ⟨pair, he, ?_⟩
    rw [← EngineFactory.resolvedWorkDir_eq, ← EngineFactory.directory_of_key hkey]
    exact EngineFactory.builtOn_of_build hF hbuild
  shared i j request request' hq hq' :=
    (supplied_of_run hr hq).shared hsha (supplied_of_run hr hq')

end

instance {Config : Type} (F : EngineFactory Config) (tr : List (SysLabel Text Event))
    (w : World Text Event) (l : SysLabel Text Event) (w' : World Text Event) :
    Decidable (furnished F tr w l w') :=
  inferInstanceAs (Decidable (∀ q ∈ factoryGot l, q.2 = (F.next (factoryCalls tr) q.1).isOk))

/-- A task, up to its engine. -/
theorem engine_law_default : ∃ tr s, DemoRun (furnished plainFactory) tr s ∧
    ((equipment Task String).read 2 tr).request = some ⟨none, none⟩ ∧
    EngineLaw plainFactory tr := by
  obtain ⟨tr, s, hr, ho⟩ := demoDriver.drive_observe (furnished plainFactory) (.idle .init)
    (start ++ create 1 ++ [.spawn 2 .worker] ++ go 2 5)
    (fun o => ((equipment Task String).read 2 o.1).request)
    (show _ = some ⟨none, none⟩ by decide)
  exact ⟨tr, s, hr, ho, engine_law plainFactory_keeps Function.injective_id hr⟩

end Orchestrator
