import Orchestrator.Concurrency.Monitor
import Orchestrator.Footprint
import Orchestrator.Frame
import Orchestrator.Schedule

namespace Orchestrator
open Concurrency Async
set_option autoImplicit true

section
variable [TaskJson Text]

def writesSuccess (x : Text) : Bool := (parse x).any fun t => t.status = .success

/-- What has happened in a turn: the engine has raised `LockStolenError`, the execution has gone
to the handler for it, or it has written a success. -/
structure Conduct where
  stolen : Bool
  handled : Bool
  succeeded : Bool
  deriving DecidableEq

def Conduct.after (d : Conduct) : (c : Cmd Text Event) → c.Answer → Conduct
  | .iterEvents .., .error e | .awaitFuture .., .error e =>
    if e.cls = .lockStolen then { d with stolen := true } else d
  | .log (.lockStolen ..), _ => { d with handled := true }
  | .set _ x, _ => if writesSuccess x then { d with succeeded := true } else d
  | _, _ => d

def conduct (Text : Type) [TaskJson Text] (Event : Type) :
    Monitor (Cmd Text Event) Cmd.Answer Conduct where
  init := ⟨false, false, false⟩
  cmd := Conduct.after
  abort := Conduct.after

/-- The heartbeat and the thread of the execution in a process, and what has happened since the
heartbeat ended in an error. -/
structure Watch where
  token : Option String
  thread : Option Nat
  failed : Bool
  published : Bool
  succeeded : Bool
  deriving DecidableEq

def Watch.idle : Watch := ⟨none, none, false, false, false⟩

def Watch.after (d : Watch) : (c : Cmd Text Event) → c.Answer → Watch
  | .createHeartbeat _ τ, _ => { d with token := some τ }
  | .cancelHeartbeat _, _ => { d with token := none }
  | .runInExecutor .., .ok n => { d with thread := some n }
  | .set _ x, _ => { d with succeeded := d.succeeded || d.failed && writesSuccess x }
  | _, _ => d

/-- How a step of a heartbeat or of a thread shows. A heartbeat ends in an error when it finds the
lock lost, or when its own command fails. -/
def Watch.see (d : Watch) : Tick → Watch
  | .beatFails τ _ | .refresh τ false => { d with failed := d.failed || d.token = some τ }
  | .threadPublish n => { d with published := d.published || d.failed && d.thread = some n }
  | _ => d

def watch (i : Nat) : List (SysLabel Text Event) → Watch
  | [] => .idle
  | .cmd j c r :: tr | .abort j c r :: tr =>
    if j = i then (watch i tr).after c r else watch i tr
  | .spawn j _ :: tr | .exit j _ _ :: tr => if j = i then .idle else watch i tr
  | .env e :: tr => (watch i tr).see e
  | .halt :: _ => .idle

/-- If the heartbeat has ended in an error, then nothing was published and no success written
after that, and the execution has gone to the handler of `LockStolenError`. -/
def Heeds (i : Nat) (tr : List (SysLabel Text Event)) : Prop :=
  (watch i tr).failed = true → (watch i tr).published = false ∧
    (watch i tr).succeeded = false ∧ ((conduct Text Event).read i tr).handled = true

theorem after_succeeded {d : Watch} {k : Conduct} {c : Cmd Text Event} {r : c.Answer}
    (h : (d.after c r).succeeded = true) (hd : d.succeeded = true → k.succeeded = true) :
    (k.after c r).succeeded = true := by
  cases c with
  | set id x =>
    simp only [Watch.after, Bool.or_eq_true, Bool.and_eq_true] at h
    simp only [Conduct.after]
    split
    · rfl
    · rename_i hx
      exact hd (h.resolve_right fun hs => hx hs.2)
  | iterEvents _ _ _ | awaitFuture _ _ =>
    cases r with
    | ok a => exact hd h
    | error e =>
      simp only [Conduct.after]
      split <;> exact hd h
  | log line => cases line <;> exact hd h
  | runInExecutor _ _ _ => cases r <;> exact hd h
  | _ => exact hd h

theorem see_succeeded (d : Watch) (e : Tick) : (d.see e).succeeded = d.succeeded := by
  cases e with
  | refresh τ held => cases held <;> rfl
  | _ => rfl

/-- A success that comes after the end of the heartbeat is a success in the turn. -/
theorem watch_succeeded {i : Nat} {tr : List (SysLabel Text Event)}
    (h : (watch i tr).succeeded = true) : ((conduct Text Event).read i tr).succeeded = true := by
  induction tr with
  | nil => cases h
  | cons l tr ih =>
    cases l with
    | cmd j c r | abort j c r =>
      simp only [watch, Monitor.read] at h ⊢
      split at h
      · rename_i hj
        simp only [hj, ↓reduceIte]
        exact after_succeeded h ih
      · rename_i hj
        simp only [hj, ↓reduceIte]
        exact ih h
    | spawn j q | exit j q b =>
      simp only [watch, Monitor.read] at h ⊢
      split at h
      · cases h
      · rename_i hj
        simp only [hj, ↓reduceIte]
        exact ih h
    | env e =>
      simp only [watch, see_succeeded] at h
      exact ih h
    | halt => cases h

abbrev conducted (Text : Type) [TaskJson Text] (S : Setup Event) :
    Assertion (system Text S) Conduct := (conduct Text Event).assertion (system Text S)

variable {S : Setup Event} {i : Nat}

/-- Commands that do not show in the conduct, and raise no `LockStolenError`. -/
def Cmd.mild : Cmd Text Event → Bool
  | .set .. | .log _ | .iterEvents .. | .awaitFuture .. | .awaitHeartbeat _ | .factoryGet ..
  | .projectExists _ | .setProjectName _ | .checkpointExists _ => false
  | _ => true

theorem wp_conduct {c : Cmd Text Event} {Q : c.Reply → σ → Conduct → Prop}
    {X : Exc → σ → Conduct → Prop} (hQ : ∀ a, Q a s (d.after c (.ok a)))
    (hX : ∀ e, c.fails True e ∨ e.cls ≠ .lockStolen → X e s (d.after c (.error e))) :
    Wp (conducted Text S) i (ask c) Q X s d := by
  apply Monitor.wp_call
  · intro r w w' h
    cases r with
    | ok a => exact hQ a
    | error e => exact hX e (.inl (exec_error h))
  · rintro r w w' ⟨e, rfl, he, _⟩
    refine hX e (.inr fun hs => ?_)
    rcases he with ⟨_, he⟩ | ⟨_, he⟩
    · rw [hs] at he
      cases he
    · rw [hs] at he
      cases he

/-- The conduct stays as it is, and nothing raises a `LockStolenError`. -/
def Mild (S : Setup Event) (i : Nat) (d : Conduct) (p : Py Text Event σ α) (Q : α → σ → Prop)
    (s : σ) : Prop :=
  Wp (conducted Text S) i p (fun a s d' => d' = d ∧ Q a s)
    (fun e _ d' => d' = d ∧ e.cls ≠ .lockStolen) s d

theorem mild_ask {c : Cmd Text Event} (hc : c.mild = true) {Q : c.Reply → σ → Prop}
    (hQ : ∀ a, Q a s) : Mild S i d (ask c) Q s := by
  have hafter (r : c.Answer) : d.after c r = d := by
    cases c with
    | set _ _ | log _ | iterEvents _ _ _ | awaitFuture _ _ => cases hc
    | _ => rfl
  apply wp_conduct
  · exact fun a => ⟨hafter _, hQ a⟩
  · rintro e he
    refine ⟨hafter _, he.resolve_left fun hf => ?_⟩
    cases c with
    | awaitHeartbeat _ | factoryGet _ _ | projectExists _ | setProjectName _
    | checkpointExists _ | iterEvents _ _ _ | awaitFuture _ _ => cases hc
    | _ => exact hf

theorem Mild.bind {p : Py Text Event σ α} {f : α → Py Text Event σ β} {P : α → σ → Prop}
    {Q : β → σ → Prop} (hp : Mild S i d p P s) (hf : ∀ a s, P a s → Mild S i d (f a) Q s) :
    Mild S i d (p >>= f) Q s := by
  apply Wp.bind
  apply Wp.mono hp
  · rintro a s' d' ⟨rfl, ha⟩
    exact hf a s' ha
  · exact fun _ _ _ h => h

theorem mild_transition (st : TaskStatus) (detail : String) (t : Task) :
    Mild S i d (Worker.transition st detail : Py Text Event Task Unit)
      (fun _ t' => t'.status = st) t :=
  Mild.bind (P := fun _ _ => True) (mild_ask rfl fun _ => trivial) fun _ _ _ => ⟨rfl, rfl⟩

theorem mild_close (t : Task) :
    Mild S i d (Worker.close : Py Text Event Task Unit) (fun _ _ => True) t :=
  mild_ask rfl fun _ => trivial

theorem writesSuccess_dump (t : Task) :
    writesSuccess (modelDumpJson t : Text) = decide (t.status = .success) := by
  simp only [writesSuccess, parse_dump, Option.any_some]

theorem mild_update {t : Task} (h : t.status ≠ .success) :
    Mild S i d (Worker.update S : Py Text Event Task Unit) (fun _ _ => True) t := by
  have hset (r : Except Exc Unit) :
      d.after (.set t.taskId (modelDumpJson t : Text) : Cmd Text Event) r = d := by
    simp only [Conduct.after, writesSuccess_dump, h, decide_false, Bool.false_eq_true, ↓reduceIte]
  apply Mild.bind (P := fun a s => a = t ∧ s = t) (Wp.object ⟨rfl, rfl, rfl⟩)
  rintro _ _ ⟨rfl, rfl⟩
  apply Mild.bind (P := fun _ _ => True)
  · apply wp_conduct
    · exact fun _ => ⟨hset _, trivial⟩
    · exact fun e he => ⟨hset _, he.resolve_left not_false⟩
  · intro _ s _
    split
    · exact mild_ask rfl fun _ => trivial
    · exact Wp.pure _ ⟨rfl, trivial⟩

theorem mild_handleRetriable (exc : Exc) (t : Task) :
    Mild S i d (Worker.handleRetriable S exc : Py Text Event Task Unit) (fun _ _ => True) t := by
  apply Mild.bind (P := fun _ _ => True) (Wp.object ⟨rfl, trivial⟩)
  intro u s _
  split
  · apply Mild.bind (P := fun _ _ => True) (Wp.mutate _ ⟨rfl, trivial⟩)
    intro _ s _
    apply Mild.bind (mild_transition _ _ _)
    intro _ s hs
    apply Mild.bind (mild_update (by rw [hs]; decide))
    intro _ s _
    apply Mild.bind (P := fun _ _ => True) (Wp.object ⟨rfl, trivial⟩)
    exact fun _ _ _ => mild_ask rfl fun _ => trivial
  · apply Mild.bind (mild_transition _ _ _)
    intro _ s hs
    apply Mild.bind (mild_update (by rw [hs]; decide))
    exact fun _ s _ => mild_close s

theorem mild_leave (st : TaskStatus) (hst : st ≠ .success) (detail : String) (t : Task)
    {p : Py Text Event Task Unit} (hp : ∀ t, Mild S i d p (fun _ _ => True) t) :
    Mild S i d (do
      Worker.transition st detail
      Worker.update S
      p : Py Text Event Task Unit) (fun _ _ => True) t := by
  apply Mild.bind (mild_transition _ _ _)
  intro _ s hs
  apply Mild.bind (mild_update (by rw [hs]; exact hst))
  exact fun _ s _ => hp s

theorem mild_reject (detail : String) (t : Task) :
    Mild S i d (Worker.reject S detail : Py Text Event Task Unit) (fun _ _ => True) t :=
  mild_leave .failed (by decide) detail t mild_close

/-- Up to here the engine has raised no `LockStolenError`. -/
def Conduct.Unstolen (d : Conduct) : Prop := d.stolen = false ∧ d.handled = false

/-- The exception on its way to `_execute` is a `LockStolenError` just when the engine raised
one. -/
def Conduct.Raising (d : Conduct) (e : Exc) : Prop :=
  d.handled = false ∧ (e.cls = .lockStolen ↔ d.stolen = true) ∧
    (d.stolen = true → d.succeeded = false)

/-- The handler was run just when the engine raised a `LockStolenError`. -/
def Conduct.Settled (d : Conduct) : Prop :=
  d.handled = d.stolen ∧ (d.stolen = true → d.succeeded = false)

theorem Conduct.Unstolen.settled {d : Conduct} (h : d.Unstolen) : d.Settled :=
  ⟨h.2.trans h.1.symm, fun hs => by rw [h.1] at hs; cases hs⟩

theorem Conduct.Unstolen.raising {d : Conduct} (h : d.Unstolen) (he : e.cls ≠ .lockStolen) :
    d.Raising e :=
  ⟨h.2, ⟨fun hs => absurd hs he, fun hs => by rw [h.1] at hs; cases hs⟩,
    fun hs => by rw [h.1] at hs; cases hs⟩

theorem Mild.unstolen {p : Py Text Event Task Unit} {Q : Unit → Task → Prop} (hp : Mild S i d p Q s)
    (hd : d.Unstolen) :
    Wp (conducted Text S) i p (fun _ _ d => d.Unstolen) (fun e _ d => d.Raising e) s d := by
  apply Wp.mono hp
  · rintro _ _ _ ⟨rfl, _⟩
    exact hd
  · rintro e _ _ ⟨rfl, he⟩
    exact hd.raising he

theorem wp_stream_conduct {mode : TaskMode} (hd : d = ⟨false, false, false⟩) :
    Wp (conducted Text S) i (Worker.stream S mode) (fun _ _ d => d.Unstolen)
      (fun e _ d => d.Raising e) s d := by
  have hraise (e : Exc) :
      (if e.cls = .lockStolen then { d with stolen := true } else d).Raising e := by
    subst hd
    split
    · rename_i he
      exact ⟨rfl, iff_of_true he rfl, fun _ => rfl⟩
    · rename_i he
      exact ⟨rfl, iff_of_false he Bool.false_ne_true, fun h => by cases h⟩
  have hun : d.Unstolen := by
    subst hd
    exact ⟨rfl, rfl⟩
  unfold Worker.stream
  apply Wp.bind
  apply Wp.object
  apply Wp.bind
  apply wp_conduct
  · intro it
    apply Wp.bind
    apply wp_conduct
    · intro n
      apply Wp.bind
      apply Wp.attempt
      apply wp_conduct
      · exact fun _ => Wp.pure _ hun
      · intro e _
        dsimp only
        split
        · rename_i he
          have hn : ¬e.cls = .lockStolen := by
            rw [he]
            decide
          simp only [Conduct.after, hn, ↓reduceIte]
          exact Wp.raise _ (hun.raising fun h => by cases h)
        · exact Wp.raise _ (hraise e)
    · exact fun e he => hun.raising (he.resolve_left not_false)
  · exact fun e _ => hraise e

theorem wp_update_conduct (hd : d.Unstolen) {t : Task} :
    Wp (conducted Text S) i (Worker.update S) (fun _ _ d => d.Unstolen)
      (fun e _ d => d.Unstolen ∧ e.cls ≠ .lockStolen) t d := by
  have hset (r : Except Exc Unit) :
      (d.after (.set t.taskId (modelDumpJson t : Text) : Cmd Text Event) r).Unstolen := by
    simp only [Conduct.after]
    split <;> exact hd
  unfold Worker.update TaskStore.asyncUpdate
  apply Wp.bind
  apply Wp.object
  apply Wp.bind
  apply wp_conduct
  · intro _
    split
    · apply wp_conduct
      · exact fun _ => hset (.ok ())
      · exact fun e he => ⟨hset (.ok ()), he.resolve_left not_false⟩
    · exact Wp.pure _ (hset _)
  · exact fun e he => ⟨hset _, he.resolve_left not_false⟩

theorem wp_streamed_conduct {mode : TaskMode} (hd : d = ⟨false, false, false⟩) :
    Wp (conducted Text S) i (do
      Worker.stream S mode
      Worker.transition .success ""
      Worker.update S) (fun _ _ d => d.Unstolen) (fun e _ d => d.Raising e) s d := by
  apply Wp.bind
  apply Wp.mono (wp_stream_conduct hd)
  · intro _ s d hd
    apply Wp.bind
    apply Wp.mono (mild_transition _ _ s)
    · rintro _ s _ ⟨rfl, _⟩
      apply Wp.mono (wp_update_conduct hd)
      · exact fun _ _ _ h => h
      · exact fun e _ _ h => h.1.raising h.2
    · rintro e _ _ ⟨rfl, he⟩
      exact hd.raising he
  · exact fun _ _ _ h => h

theorem wp_attemptStream_conduct {mode : TaskMode} (hd : d = ⟨false, false, false⟩) :
    Wp (conducted Text S) i (Worker.attemptStream S mode) (fun _ _ d => d.Unstolen)
      (fun e _ d => d.Raising e) s d := by
  unfold Worker.attemptStream
  apply Wp.bind
  apply Wp.attempt
  apply Wp.mono (wp_streamed_conduct hd)
  · exact fun _ s _ hd => (mild_close s).unstolen hd
  · intro e s d he
    have hun (hne : e.cls ≠ .lockStolen) : d.Unstolen :=
      ⟨Bool.eq_false_iff.2 fun hs => hne (he.2.1.2 hs), he.1⟩
    cases hc : e.cls with
    | lockStolen | base =>
      simp only [hc]
      exact Wp.raise _ he
    | fatal =>
      simp only [hc]
      exact (mild_reject _ s).unstolen (hun (by rw [hc]; decide))
    | retriable =>
      simp only [hc]
      exact Mild.unstolen (Mild.bind (mild_close s) fun _ s _ => mild_handleRetriable e s)
        (hun (by rw [hc]; decide))
    | cancelled =>
      have hne : e.cls ≠ .lockStolen := by rw [hc]; decide
      simp only [hc]
      refine Mild.unstolen (mild_leave .interrupted (by decide) _ s fun t => ?_) (hun hne)
      exact Mild.bind (mild_close t) fun _ _ _ => Wp.raise _ ⟨rfl, hne⟩
    | timeout | futuresCancelled | value | runtime | other =>
      simp only [hc]
      exact (mild_reject _ s).unstolen (hun (by rw [hc]; decide))

theorem mild_check {p : Py Text Event Task Bool} (s : Task)
    (hp : Wp (conducted Text S) i p (fun _ _ d' => d' = d)
      (fun e _ d' => d' = d ∧ (e.isException = true ∨ e.cls ≠ .lockStolen)) s d) :
    Mild S i d (Scheduler.check p) (fun _ _ => True) s := by
  apply wp_tryExcept
  apply Wp.mono hp
  · exact fun _ _ _ h => ⟨h, trivial⟩
  · rintro e s' _ ⟨rfl, he⟩
    refine ⟨fun _ => Wp.pure _ ⟨rfl, trivial⟩, fun hn => ⟨rfl, he.resolve_left fun h => ?_⟩⟩
    rw [h] at hn
    cases hn

/-- A call out of the repository may raise any `Exception`. -/
theorem wp_external_conduct {c : Cmd Text Event} (hc : c.external = true) (s : Task) :
    Wp (conducted Text S) i (ask c) (fun _ _ d' => d' = d)
      (fun e _ d' => d' = d ∧ (e.isException = true ∨ e.cls ≠ .lockStolen)) s d := by
  have hafter (r : c.Answer) : d.after c r = d := by
    cases c with
    | set _ _ | log _ | iterEvents _ _ _ | awaitFuture _ _ => cases hc
    | _ => rfl
  apply wp_conduct
  · exact fun a => hafter _
  · exact fun e he => ⟨hafter _, he.imp_left (isException_of_external hc)⟩

theorem mild_apply (mode : TaskMode) (t : Task) :
    Mild S i d (Scheduler.apply mode : Py Text Event Task TaskMode) (fun _ _ => True) t :=
  Mild.bind (P := fun _ _ => True) (mild_ask rfl fun _ => trivial) fun _ _ _ => ⟨rfl, trivial⟩

theorem mild_hasCheckpoint (project : String) (t : Task) :
    Mild S i d (Scheduler.hasCheckpoint project : Py Text Event Task Bool) (fun _ _ => True) t := by
  apply mild_check
  apply Wp.bind
  apply Wp.mono (wp_external_conduct rfl t)
  · rintro _ s _ rfl
    exact wp_external_conduct rfl s
  · exact fun _ _ _ h => h

theorem mild_decide (t : Task) :
    Mild S i d (Scheduler.decide S : Py Text Event Task TaskMode) (fun _ _ => True) t := by
  apply Mild.bind (P := fun _ _ => True) (Wp.object ⟨rfl, trivial⟩)
  intro u s _
  split
  · apply Mild.bind (mild_hasCheckpoint _ s)
    intro b s _
    split
    · exact mild_apply _ s
    · exact Wp.raise _ ⟨rfl, fun h => by cases h⟩
  · apply Mild.bind (mild_check s (wp_external_conduct rfl s))
    intro b s _
    split
    · apply Mild.bind (mild_hasCheckpoint _ s)
      intro b s _
      split
      · exact mild_apply _ s
      · exact mild_apply _ s
    · exact mild_apply _ s

theorem wp_runLocked_conduct (hd : d = ⟨false, false, false⟩) :
    Wp (conducted Text S) i (Worker.runLocked S) (fun _ _ d => d.Unstolen)
      (fun e _ d => d.Raising e) s d := by
  have hun : d.Unstolen := by
    subst hd
    exact ⟨rfl, rfl⟩
  unfold Worker.runLocked
  apply Wp.bind
  apply Wp.object
  apply Wp.bind
  apply Wp.attempt
  apply Wp.mono (wp_external_conduct rfl s)
  · rintro _ s _ rfl
    apply Wp.bind
    apply Wp.attempt
    apply Wp.mono (mild_decide s)
    · rintro mode s _ ⟨rfl, _⟩
      apply Wp.bind
      apply Wp.mono (mild_transition _ _ s)
      · rintro _ s _ ⟨rfl, hs⟩
        apply Wp.bind
        apply Wp.mono (mild_update (by rw [hs]; decide))
        · rintro _ s _ ⟨rfl, _⟩
          exact wp_attemptStream_conduct hd
        · rintro e _ _ ⟨rfl, he⟩
          exact hun.raising he
      · rintro e _ _ ⟨rfl, he⟩
        exact hun.raising he
    · rintro e s _ ⟨rfl, he⟩
      dsimp only
      split
      · exact (mild_reject _ s).unstolen hun
      · exact Wp.raise _ (hun.raising he)
  · rintro e s _ ⟨rfl, he⟩
    dsimp only
    split
    · exact (mild_reject _ s).unstolen hun
    · rename_i hn
      exact Wp.raise _ (hun.raising (he.resolve_left hn))

theorem wp_guarded_conduct (hd : d = ⟨false, false, false⟩) :
    Wp (conducted Text S) i (Worker.guarded S) (fun _ _ d => d.Settled)
      (fun _ _ d => d.Settled) s d := by
  unfold Worker.guarded
  apply Wp.bind
  apply Wp.attempt
  apply Wp.mono (wp_runLocked_conduct hd)
  · exact fun _ _ _ hd => Wp.pure _ hd.settled
  · rintro e s d ⟨hh, he, hs⟩
    dsimp only
    split
    · rename_i hl
      apply Wp.bind
      apply Wp.object
      apply Wp.bind
      have hset : ({ d with handled := true } : Conduct).Settled := ⟨(he.1 hl).symm, hs⟩
      apply wp_conduct
      · intro _
        apply Wp.mono (mild_handleRetriable _ s)
        · rintro _ _ _ ⟨rfl, _⟩
          exact hset
        · rintro _ _ _ ⟨rfl, _⟩
          exact hset
      · exact fun _ _ => hset
    · rename_i hl
      refine Wp.raise _ ⟨?_, hs⟩
      rw [hh]
      exact (Bool.eq_false_iff.2 fun h => hl (he.2 h)).symm

theorem Mild.settled {p : Py Text Event σ α} {Q : α → σ → Prop} (hp : Mild S i d p Q s)
    (hd : d.Settled) :
    Wp (conducted Text S) i p (fun _ _ d => d.Settled) (fun _ _ d => d.Settled) s d := by
  apply Wp.mono hp
  · rintro _ _ _ ⟨rfl, _⟩
    exact hd
  · rintro _ _ _ ⟨rfl, _⟩
    exact hd

theorem Mild.then_settled {p : Py Text Event σ α} {f : α → Py Text Event σ β} {P : α → σ → Prop}
    (hp : Mild S i d p P s) (hd : d.Settled)
    (hf : ∀ a s, Wp (conducted Text S) i (f a) (fun _ _ d => d.Settled)
      (fun _ _ d => d.Settled) s d) :
    Wp (conducted Text S) i (p >>= f) (fun _ _ d => d.Settled) (fun _ _ d => d.Settled) s d := by
  apply Wp.bind
  apply Wp.mono hp
  · rintro a s _ ⟨rfl, _⟩
    exact hf a s
  · rintro _ _ _ ⟨rfl, _⟩
    exact hd

/-- What the heartbeat ended with does not come out of the clean-up. -/
theorem mild_cleanUp (p τ : String) (t : Task) :
    Mild S i d (Worker.cleanUp p τ : Py Text Event Task Unit) (fun _ _ => True) t := by
  apply Mild.bind (P := fun _ _ => True) (mild_ask rfl fun _ => trivial)
  intro _ s _
  apply Mild.bind (P := fun _ _ => True)
  · apply Wp.attempt
    apply wp_conduct
    · exact fun _ => ⟨rfl, trivial⟩
    · exact fun _ _ => ⟨rfl, trivial⟩
  · exact fun _ _ _ => mild_ask rfl fun _ => trivial

theorem wp_execute_conduct (hd : d = ⟨false, false, false⟩) :
    Wp (conducted Text S) i (Worker.execute S) (fun _ _ d => d.Settled)
      (fun _ _ d => d.Settled) s d := by
  have hset : d.Settled := by
    subst hd
    exact ⟨rfl, fun h => by cases h⟩
  have hok {c : Cmd Text Event} (hc : c.mild = true) (s : Task) :
      Mild S i d (ask c) (fun _ _ => True) s := mild_ask hc fun _ => trivial
  unfold Worker.execute
  apply Wp.bind
  apply Wp.object
  apply (hok rfl s).then_settled hset
  intro τ s
  apply Mild.then_settled (hok rfl s) hset
  intro b s
  split
  · apply (hok rfl s).then_settled hset
    intro _ s
    apply Wp.ensure
    apply Wp.mono (wp_guarded_conduct hd)
    · exact fun _ s _ hd => (mild_cleanUp _ τ s).settled hd
    · exact fun _ s _ hd => (mild_cleanUp _ τ s).settled hd
  · apply Wp.bind
    apply wp_conduct
    · intro _
      apply Mild.then_settled (hok rfl s) hset
      exact fun _ s => (hok rfl s).settled hset
    · exact fun _ _ => hset

theorem wp_turn_conduct {s : Unit} :
    Wp (conducted Text S) i (Worker.turn S) (fun _ _ d => d.Settled)
      (fun _ _ d => d.Settled) s ⟨false, false, false⟩ := by
  have hset : Conduct.Settled ⟨false, false, false⟩ := ⟨rfl, fun h => by cases h⟩
  have hdequeue : Mild S i ⟨false, false, false⟩ (TaskQueue.dequeue : Py Text Event Unit _)
      (fun _ _ => True) s := by
    apply Mild.bind (P := fun _ _ => True) (mild_ask rfl fun _ => trivial)
    intro o s _
    cases o <;> exact Wp.pure _ ⟨rfl, trivial⟩
  unfold Worker.turn
  apply hdequeue.then_settled hset
  intro o s
  cases o with
  | none => exact Wp.pure _ hset
  | some t => exact Wp.on t (wp_execute_conduct rfl)

/-- How a worker has conducted itself at the end of a turn. -/
def Kind.Conducted : Kind → Conduct → Prop
  | .worker, d => d.Settled
  | _, _ => True

theorem conduct_body (q : Kind) :
    Safe (conducted Text S) i (fun _ d => q.Conducted d) ((system Text S).body q)
      ⟨false, false, false⟩ := by
  cases q with
  | worker =>
    apply Wp.start
    apply Wp.bind
    exact Wp.mono wp_turn_conduct (fun _ _ _ h => Wp.pure _ h) fun _ _ _ h => h
  | recover | request body => exact (Monitor.safe_true _).mono fun _ _ _ => trivial

/-- At the end of a turn: the end of its heartbeat has had its effect just when the heartbeat
did not end in an error, or the engine itself raised a `LockStolenError` and yielded no event
after the end of the heartbeat. -/
theorem heeds_iff {tr : List (SysLabel Text Event)} {s s' : SysConfig Text Event}
    {b : Except Exc Returned} (hr : Run (system Text S) anyway (.idle .init) tr s)
    (hs : (system Text S).Step s (.exit i .worker b) s') :
    Heeds i tr ↔ (watch i tr).failed = false ∨
      ((conduct Text Event).read i tr).stolen = true ∧ (watch i tr).published = false := by
  have hd : ((conduct Text Event).read i tr).Settled := by
    cases hs with
    | answer hp ha => cases ha
    | exit hp he =>
      exact Monitor.post_of_run (fun q _ d => q.Conducted d) (fun _ => conduct_body) hr hp
  obtain ⟨hh, hsucc⟩ := hd
  constructor
  · intro h
    cases hf : (watch i tr).failed with
    | false => exact .inl rfl
    | true =>
      obtain ⟨hp, _, hhand⟩ := h hf
      exact .inr ⟨hh.symm.trans hhand, hp⟩
  · rintro (hf | ⟨hst, hp⟩) hfail
    · rw [hf] at hfail
      cases hfail
    · refine ⟨hp, Bool.eq_false_iff.2 fun hw => ?_, hh.trans hst⟩
      have := watch_succeeded hw
      rw [hsucc hst] at this
      cases this

end

/-- A turn up to the stream of the given iterator, which is running when the lock expires and the
heartbeat finds out. -/
def lostLock (it : Iter String) : Schedule :=
  start ++ create 1 ++ [.spawn 2 .worker] ++ go 2 9 ++ [.cmd 2 (.yields it)] ++ go 2 1 ++
    [.env (.threadStart 0), .env (.expire "p"), .env (.beat "uu"), .env (.refresh "uu" false)]

/-- The stream goes on, and the turn to a success. -/
def unheeded : Schedule :=
  lostLock ⟨["e"], .ok ()⟩ ++ [.env (.threadPublish 0), .env (.threadEnd 0)] ++ go 2 8

/-- The engine raises a `LockStolenError` of its own. -/
def engineRaises : Schedule :=
  lostLock ⟨[], .error ⟨.lockStolen, ""⟩⟩ ++ [.env (.threadEnd 0)] ++ go 2 8

theorem heeds_engineRaises : ∃ tr s b s', DemoRun anyway tr s ∧
    (system Task demo).Step s (.exit 2 .worker b) s' ∧ (watch 2 tr).failed = true ∧
    Heeds 2 tr := by
  obtain ⟨tr, s, hr, hs⟩ := demoDriver.drive_observe anyway (.idle .init) engineRaises
    (fun o => (returning 2 o.2).map fun b =>
      (watch 2 o.1, ((conduct Task String).read 2 o.1).stolen, b.toBool))
    (show _ = some (⟨none, some 0, true, false, false⟩, true, true) by decide)
  obtain ⟨b, hb, ho⟩ := Option.map_eq_some_iff.1 hs
  obtain ⟨hw, hst, _⟩ := by simpa only [Prod.mk.injEq] using ho
  obtain ⟨s', hstep, _⟩ := step_of_returning hb
  refine ⟨tr, s, b, s', hr, hstep, by rw [hw], (heeds_iff hr hstep).2 (.inr ⟨hst, by rw [hw]⟩)⟩

theorem not_heeds : ¬∀ tr s b s', DemoRun anyway tr s →
    (system Task demo).Step s (.exit 2 .worker b) s' → Heeds 2 tr := by
  intro h
  obtain ⟨tr, s, hr, hs⟩ := demoDriver.drive_observe anyway (.idle .init) unheeded
    (fun o => (returning 2 o.2).map fun b => (watch 2 o.1, b.toBool))
    (show _ = some (⟨none, some 0, true, true, true⟩, true) by decide)
  obtain ⟨b, hb, ho⟩ := Option.map_eq_some_iff.1 hs
  obtain ⟨hw, _⟩ := by simpa only [Prod.mk.injEq] using ho
  obtain ⟨s', hstep, _⟩ := step_of_returning hb
  have hheeds := h tr s b s' hr hstep (by rw [hw])
  rw [hw] at hheeds
  exact absurd hheeds.2.1 (by decide)

end Orchestrator
