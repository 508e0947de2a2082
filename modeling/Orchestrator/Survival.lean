import Orchestrator.Concurrency.Monitor
import Orchestrator.Footprint
import Orchestrator.Frame
import Orchestrator.Schedule

namespace Orchestrator
open Concurrency Async
set_option autoImplicit true

/-- What has happened in a turn: its stream has ended in a timeout, a cancellation, or another
exception that is no `Exception`, or one of its commands has been cut short. -/
structure Turn where
  expired : Bool
  cut : Bool

/-- How a command that is carried out changes the turn. -/
def Turn.after (d : Turn) : (c : Cmd Text Event) → c.Answer → Turn
  | .iterEvents .., .error e => if e.isException then d else { d with expired := true }
  | .awaitFuture .., .error e =>
    if e.cls = .timeout ∨ e.isException = false then { d with expired := true } else d
  | _, _ => d

def turn : Monitor (Cmd Text Event) Cmd.Answer Turn where
  init := ⟨false, false⟩
  cmd d c r := d.after c r
  abort d _ _ := { d with cut := true }

/-- The stream in the turn of process `i` has ended in a timeout, or in no `Exception`. -/
def expired (i : Nat) (tr : List (SysLabel Text Event)) : Bool := (turn.read i tr).expired

/-- A command of process `i` has been cut short in its turn. -/
def cut (i : Nat) (tr : List (SysLabel Text Event)) : Bool := (turn.read i tr).cut

section
variable [TaskJson Text]

abbrev survival (Text : Type) [TaskJson Text] (S : Setup Event) :
    Assertion (system Text S) Turn := turn.assertion (system Text S)

variable {S : Setup Event} {i : Nat}

theorem wp_answer {c : Cmd Text Event} {Q : c.Reply → σ → Turn → Prop}
    {X : Exc → σ → Turn → Prop} (hQ : ∀ a, Q a s (d.after c (.ok a)))
    (hX : ∀ e, c.fails True e → X e s (d.after c (.error e)))
    (hA : ∀ e, X e s { d with cut := true }) :
    Wp (survival Text S) i (ask c) Q X s d := by
  apply Monitor.wp_call
  · intro r w w' h
    cases r with
    | ok a => exact hQ a
    | error e => exact hX e (exec_error h)
  · rintro r w w' ⟨e, rfl, _⟩
    exact hA e

/-- The turn stays as it is, and nothing but a cut raises. -/
def Calm (S : Setup Event) (i : Nat) (p : Py Text Event σ α) : Prop :=
  ∀ s d, Wp (survival Text S) i p (fun _ _ d' => d' = d ∨ d'.cut = true)
    (fun _ _ d' => d'.cut = true) s d

def Cmd.calm : Cmd Text Event → Bool
  | .brpop | .awaitHeartbeat _ | .factoryGet .. | .projectExists _ | .setProjectName _
  | .checkpointExists _ | .iterEvents .. | .awaitFuture .. => false
  | _ => true

theorem calm_ask {c : Cmd Text Event} (hc : c.calm = true) :
    Calm S i (ask c : Py Text Event σ c.Reply) := by
  intro s d
  have hafter (r : c.Answer) : d.after c r = d := by
    cases c with
    | brpop | iterEvents _ _ _ | awaitFuture _ _ => cases hc
    | _ => rfl
  apply wp_answer
  · exact fun a => .inl (hafter _)
  · intro e he
    exfalso
    cases c with
    | awaitHeartbeat _ | factoryGet _ _ | projectExists _ | setProjectName _
    | checkpointExists _ | iterEvents _ _ _ | awaitFuture _ _ => cases hc
    | _ => exact he
  · exact fun _ => rfl

theorem calm_pure (a : α) : Calm S i (Pure.pure a : Py Text Event σ α) :=
  fun _ _ => Wp.pure _ (.inl rfl)

theorem calm_object : Calm S i (Async.object : Py Text Event σ σ) :=
  fun _ _ => Wp.object (.inl rfl)

theorem calm_mutate (f : σ → σ) : Calm S i (Async.mutate f : Py Text Event σ Unit) :=
  fun _ _ => Wp.mutate _ (.inl rfl)

theorem calm_bind {p : Py Text Event σ α} {f : α → Py Text Event σ β} (hp : Calm S i p)
    (hf : ∀ a, Calm S i (f a)) : Calm S i (p >>= f) := by
  intro s d
  apply Wp.bind
  apply Wp.mono (hp s d)
  · rintro a s' d' hd
    apply Wp.mono (hf a s' d')
    · rintro b s'' d'' (rfl | hc)
      · exact hd
      · exact .inr hc
    · exact fun _ _ _ h => h
  · exact fun _ _ _ h => h

theorem calm_transition (st : TaskStatus) (detail : String) :
    Calm S i (Worker.transition st detail : Py Text Event Task Unit) :=
  calm_bind (calm_ask rfl) fun _ => calm_mutate _

theorem calm_update : Calm S i (Worker.update S : Py Text Event Task Unit) := by
  apply calm_bind calm_object
  intro t
  apply calm_bind (calm_ask rfl)
  intro _
  split
  · exact calm_ask rfl
  · exact calm_pure _

theorem calm_close : Calm S i (Worker.close : Py Text Event Task Unit) :=
  calm_bind calm_object fun _ => calm_ask rfl

theorem calm_handleRetriable (exc : Exc) :
    Calm S i (Worker.handleRetriable S exc : Py Text Event Task Unit) := by
  apply calm_bind calm_object
  intro t
  split
  · apply calm_bind (calm_mutate _)
    intro _
    apply calm_bind (calm_transition _ _)
    intro _
    apply calm_bind calm_update
    intro _
    exact calm_bind calm_object fun _ => calm_ask rfl
  · apply calm_bind (calm_transition _ _)
    intro _
    exact calm_bind calm_update fun _ => calm_close

theorem calm_reject (detail : String) :
    Calm S i (Worker.reject S detail : Py Text Event Task Unit) :=
  calm_bind (calm_transition _ _) fun _ => calm_bind calm_update fun _ => calm_close

theorem calm_cleanUp (project τ : String) :
    Calm S i (Worker.cleanUp project τ : Py Text Event Task Unit) := by
  apply calm_bind (calm_ask rfl)
  intro _
  apply calm_bind
  · intro s d
    apply Wp.attempt
    apply wp_answer
    · exact fun _ => .inl rfl
    · exact fun _ _ => .inl rfl
    · exact fun _ => .inr rfl
  · exact fun _ => calm_ask rfl

theorem safe_cut (p : Coro (Cmd Text Event) Cmd.Answer α) (hd : d.cut = true) :
    Safe (survival Text S) i (fun _ d => d.cut = true) p d := by
  induction p generalizing d with
  | ret a => exact hd
  | await c k ih =>
    apply Monitor.safe_await
    · refine fun r _ _ _ => ih r ?_
      cases c with
      | iterEvents _ _ _ | awaitFuture _ _ =>
        cases r with
        | ok a => exact hd
        | error e =>
          simp only [turn, Turn.after]
          split <;> exact hd
      | _ => exact hd
    · exact fun r _ _ _ => ih r rfl

/-- After a cut anything goes. -/
theorem wp_cut {p : Py Text Event σ α} (hd : d.cut = true)
    (hQ : ∀ a s d, d.cut = true → Q a s d) (hX : ∀ e s d, d.cut = true → X e s d) :
    Wp (survival Text S) i p Q X s d := by
  apply Safe.mono (safe_cut (p s) hd)
  rintro ⟨o, s'⟩ d' h
  cases o with
  | ok a => exact hQ a s' d' h
  | error e => exact hX e s' d' h

/-- A calm function as the first part of another. -/
theorem Calm.wp {p : Py Text Event σ α} {Q : α → σ → Turn → Prop} {X : Exc → σ → Turn → Prop}
    (hp : Calm S i p) (hQ : ∀ a s, Q a s d) (hcut : ∀ a s d, d.cut = true → Q a s d)
    (hX : ∀ e s d, d.cut = true → X e s d) : Wp (survival Text S) i p Q X s d := by
  apply Wp.mono (hp s d)
  · rintro a s' d' (rfl | hc)
    · exact hQ a s'
    · exact hcut a s' d' hc
  · exact hX

theorem Calm.then {p : Py Text Event σ α} {f : α → Py Text Event σ β}
    {Q : β → σ → Turn → Prop} {X : Exc → σ → Turn → Prop} (hp : Calm S i p)
    (hf : ∀ a s, Wp (survival Text S) i (f a) Q X s d)
    (hQ : ∀ a s d, d.cut = true → Q a s d) (hX : ∀ e s d, d.cut = true → X e s d) :
    Wp (survival Text S) i (p >>= f) Q X s d :=
  Wp.bind (hp.wp hf (fun _ _ _ hc => wp_cut hc hQ hX) hX)

/-- A turn that a worker survives, unless it was cut. -/
def Fine (d : Turn) : Prop := d.expired = false ∨ d.cut = true

/-- A turn that a worker does not survive, unless it was cut. -/
def Ended (d : Turn) : Prop := d.expired = true ∨ d.cut = true

/-- An expired wait shows as no `Exception`, and nothing else does. -/
def Thrown (e : Exc) (d : Turn) : Prop :=
  d.cut = true ∨ d.expired = false ∧ e.isException = true ∨
    d.expired = true ∧ e.isException = false

/-- Past `_run_locked` only a stolen lock is no end of the turn. -/
def Escaped (e : Exc) (d : Turn) : Prop :=
  d.cut = true ∨ d.expired = false ∧ e.cls = .lockStolen ∨
    d.expired = true ∧ e.cls ≠ .lockStolen

theorem fine_of_cut (_ : α) (_ : σ) (d : Turn) (hc : d.cut = true) : Fine d := .inr hc

theorem ended_of_cut (_ : α) (_ : σ) (d : Turn) (hc : d.cut = true) : Ended d := .inr hc

theorem escaped_of_cut (e : Exc) (_ : σ) (d : Turn) (hc : d.cut = true) : Escaped e d := .inl hc

theorem Calm.fine {p : Py Text Event σ α} {X : Exc → σ → Turn → Prop} (hp : Calm S i p)
    (hd : d.expired = false) (hX : ∀ e s d, d.cut = true → X e s d) :
    Wp (survival Text S) i p (fun _ _ d => Fine d) X s d :=
  hp.wp (fun _ _ => .inl hd) (fun _ _ _ hc => .inr hc) hX

theorem wp_stream_turn (hd : d.expired = false) :
    Wp (survival Text S) i (Worker.stream S mode) (fun _ _ d => Fine d)
      (fun e _ d => Thrown e d) s d := by
  unfold Worker.stream
  apply Wp.bind
  apply Wp.object
  apply Wp.bind
  apply wp_answer
  · intro it
    apply Wp.bind
    apply wp_answer
    · intro n
      apply Wp.bind
      apply Wp.attempt
      apply wp_answer
      · exact fun _ => Wp.pure _ (.inl hd)
      · intro e _
        simp only [Turn.after]
        split
        · rename_i he
          rw [if_pos (.inl he)]
          exact Wp.raise _ (.inr (.inr ⟨rfl, rfl⟩))
        · rename_i he
          split
          · rename_i hc
            exact Wp.raise _ (.inr (.inr ⟨rfl, hc.resolve_left he⟩))
          · rename_i hc
            refine Wp.raise _ (.inr (.inl ⟨hd, ?_⟩))
            exact eq_true_of_ne_false fun h => hc (.inr h)
      · exact fun e => wp_cut rfl (fun _ _ _ h => .inr h) fun _ _ _ h => .inl h
    · exact fun _ he => absurd he not_false
    · exact fun _ => .inl rfl
  · intro e _
    simp only [Turn.after]
    split
    · rename_i he
      exact .inr (.inl ⟨hd, he⟩)
    · rename_i he
      exact .inr (.inr ⟨rfl, eq_false_of_ne_true he⟩)
  · exact fun _ => .inl rfl

theorem wp_attemptStream_turn (hd : d.expired = false) :
    Wp (survival Text S) i (Worker.attemptStream S mode) (fun _ _ d => Fine d)
      (fun e _ d => Escaped e d) s d := by
  have hcut {p : Py Text Event Task Unit} (s : Task) (d : Turn) (hc : d.cut = true) :
      Wp (survival Text S) i p (fun _ _ d => Fine d) (fun e _ d => Escaped e d) s d :=
    wp_cut hc (fun _ _ _ h => .inr h) fun _ _ _ h => .inl h
  unfold Worker.attemptStream
  apply Wp.bind
  apply Wp.attempt
  apply Wp.bind
  apply Wp.mono (wp_stream_turn hd)
  · rintro _ s d (hd | hc)
    · have hdone : Calm S i (do Worker.transition .success ""; Worker.update S :
          Py Text Event Task Unit) := calm_bind (calm_transition _ _) fun _ => calm_update
      apply hdone.wp
      · exact fun _ _ => calm_close.fine hd fun _ _ _ h => .inl h
      · exact fun _ _ d hc => hcut _ d hc
      · exact fun _ _ d hc => hcut _ d hc
    · exact wp_cut hc (fun _ _ d h => hcut _ d h) fun _ _ d h => hcut _ d h
  · rintro e s d (hc | ⟨hd, he⟩ | ⟨hd, he⟩)
    · exact hcut s d hc
    · have hX (e : Exc) (s : Task) (d : Turn) (hc : d.cut = true) : Escaped e d := .inl hc
      dsimp only
      split
      · exact (calm_reject _).fine hd hX
      · exact (calm_bind calm_close fun _ => calm_handleRetriable e).fine hd hX
      · rename_i hl
        exact Wp.raise _ (.inr (.inl ⟨hd, hl⟩))
      · rename_i hc
        exact absurd he (by simp [Exc.isException, hc])
      · rename_i hc
        exact absurd he (by simp [Exc.isException, hc])
      · exact (calm_reject _).fine hd hX
    · have hX (e : Exc) (s : Task) (d : Turn) (hc : d.cut = true) : Escaped e d := .inl hc
      rcases Exc.not_isException.1 he with he | he
      · simp only [he]
        refine (calm_transition _ _).then (fun _ _ => ?_) fine_of_cut hX
        refine calm_update.then (fun _ _ => ?_) fine_of_cut hX
        refine calm_close.then (fun _ _ => ?_) fine_of_cut hX
        exact Wp.raise _ (.inr (.inr ⟨hd, by rw [he]; decide⟩))
      · simp only [he]
        exact Wp.raise _ (.inr (.inr ⟨hd, by rw [he]; decide⟩))

theorem calm_apply (mode : TaskMode) :
    Calm S i (Scheduler.apply mode : Py Text Event Task TaskMode) :=
  calm_bind (calm_ask rfl) fun _ => calm_bind (calm_mutate _) fun _ => calm_pure _

/-- A call out of the repository raises only an `Exception`. -/
theorem calm_check {p : Py Text Event Task Bool}
    (hp : ∀ s d, Wp (survival Text S) i p (fun _ _ d' => d' = d ∨ d'.cut = true)
      (fun e _ d' => d'.cut = true ∨ d' = d ∧ e.isException = true) s d) :
    Calm S i (Scheduler.check p) := by
  intro s d
  apply wp_tryExcept
  apply Wp.mono (hp s d)
  · exact fun _ _ _ h => h
  · rintro e s' d' (hc | ⟨rfl, he⟩)
    · exact ⟨fun _ => Wp.pure _ (.inr hc), fun _ => hc⟩
    · refine ⟨fun _ => Wp.pure _ (.inl rfl), fun he' => ?_⟩
      rw [he] at he'
      cases he'

theorem wp_external {c : Cmd Text Event} (hc : c.external = true) (s : Task) (d : Turn) :
    Wp (survival Text S) i (ask c) (fun _ _ d' => d' = d ∨ d'.cut = true)
      (fun e _ d' => d'.cut = true ∨ d' = d ∧ e.isException = true) s d := by
  have hafter (r : c.Answer) : d.after c r = d := by
    cases c with
    | brpop | iterEvents _ _ _ | awaitFuture _ _ => cases hc
    | _ => rfl
  apply wp_answer
  · exact fun _ => .inl (hafter _)
  · exact fun e he => .inr ⟨hafter _, isException_of_external hc he⟩
  · exact fun _ => .inl rfl

theorem calm_hasCheckpoint (project : String) :
    Calm S i (Scheduler.hasCheckpoint project : Py Text Event Task Bool) := by
  apply calm_check
  intro s d
  apply Wp.bind
  apply Wp.mono (wp_external rfl s d)
  · rintro _ s' d' (rfl | hc)
    · exact wp_external rfl s' d'
    · exact wp_cut hc (fun _ _ _ h => .inr h) fun _ _ _ h => .inl h
  · exact fun _ _ _ h => h

theorem wp_decide_turn (hd : d.expired = false) :
    Wp (survival Text S) i (Scheduler.decide S) (fun _ _ d => Fine d)
      (fun e _ d => d.cut = true ∨ d.expired = false ∧ e.cls = .value) s d := by
  have hX (e : Exc) (_ : Task) (d : Turn) (hc : d.cut = true) :
      d.cut = true ∨ d.expired = false ∧ e.cls = .value := .inl hc
  have happly (mode : TaskMode) (s : Task) :
      Wp (survival Text S) i (Scheduler.apply mode) (fun _ _ d => Fine d)
        (fun e _ d => d.cut = true ∨ d.expired = false ∧ e.cls = .value) s d :=
    (calm_apply mode).fine hd hX
  unfold Scheduler.decide
  apply Wp.bind
  apply Wp.object
  split
  · refine (calm_hasCheckpoint _).then (fun b s => ?_) fine_of_cut hX
    split
    · exact happly _ s
    · exact Wp.raise _ (.inr ⟨hd, rfl⟩)
  · have hexists : Calm S i (Scheduler.check (ask (.projectExists s.projectName)) :
        Py Text Event Task Bool) :=
      calm_check (wp_external rfl)
    refine hexists.then (fun b s => ?_) fine_of_cut hX
    split
    · refine (calm_hasCheckpoint _).then (fun b s => ?_) fine_of_cut hX
      split
      · exact happly _ s
      · exact happly _ s
    · exact happly _ s

theorem wp_runLocked_turn (hd : d.expired = false) :
    Wp (survival Text S) i (Worker.runLocked S) (fun _ _ d => Fine d)
      (fun e _ d => Escaped e d) s d := by
  unfold Worker.runLocked
  apply Wp.bind
  apply Wp.object
  apply Wp.bind
  apply Wp.attempt
  apply Wp.mono (wp_external rfl s d)
  · rintro _ s d' (rfl | hc)
    · apply Wp.bind
      apply Wp.attempt
      apply Wp.mono (wp_decide_turn hd)
      · rintro mode s d (hd | hc)
        · refine (calm_transition _ _).then (fun _ _ => ?_) fine_of_cut escaped_of_cut
          exact calm_update.then (fun _ _ => wp_attemptStream_turn hd) fine_of_cut escaped_of_cut
        · exact wp_cut hc fine_of_cut escaped_of_cut
      · rintro e s d (hc | ⟨hd, he⟩)
        · exact wp_cut hc fine_of_cut escaped_of_cut
        · simp only [he, ↓reduceIte]
          exact (calm_reject _).fine hd escaped_of_cut
    · exact wp_cut hc fine_of_cut escaped_of_cut
  · rintro e s d' (hc | ⟨rfl, he⟩)
    · exact wp_cut hc fine_of_cut escaped_of_cut
    · simp only [he, ↓reduceIte]
      exact (calm_reject _).fine hd escaped_of_cut

theorem wp_guarded_turn (hd : d.expired = false) :
    Wp (survival Text S) i (Worker.guarded S) (fun _ _ d => Fine d)
      (fun _ _ d => Ended d) s d := by
  unfold Worker.guarded
  apply Wp.bind
  apply Wp.attempt
  apply Wp.mono (wp_runLocked_turn hd)
  · exact fun _ _ _ h => Wp.pure _ h
  · rintro e s d (hc | ⟨hd, he⟩ | ⟨hd, he⟩)
    · exact wp_cut hc fine_of_cut ended_of_cut
    · simp only [he, ↓reduceIte]
      apply Wp.bind
      apply Wp.object
      refine (calm_ask rfl).then (fun _ _ => ?_) fine_of_cut ended_of_cut
      exact (calm_handleRetriable _).fine hd ended_of_cut
    · simp only [he, ↓reduceIte]
      exact Wp.raise _ (.inl hd)

theorem wp_execute_turn (hd : d.expired = false) :
    Wp (survival Text S) i (Worker.execute S) (fun _ _ d => Fine d)
      (fun _ _ d => Ended d) s d := by
  unfold Worker.execute
  apply Wp.bind
  apply Wp.object
  refine (calm_ask rfl).then (fun τ _ => ?_) fine_of_cut ended_of_cut
  refine Calm.then (calm_ask rfl) (fun b _ => ?_) fine_of_cut ended_of_cut
  split
  · refine (calm_ask rfl).then (fun _ _ => ?_) fine_of_cut ended_of_cut
    apply Wp.ensure
    apply Wp.mono (wp_guarded_turn hd)
    · rintro _ s d hf
      apply (calm_cleanUp _ _).wp
      · exact fun _ _ => hf
      · exact fine_of_cut
      · exact ended_of_cut
    · rintro e s d he
      apply (calm_cleanUp _ _).wp
      · exact fun _ _ => he
      · exact fun _ _ _ hc => .inr hc
      · exact ended_of_cut
  · refine (calm_ask rfl).then (fun _ _ => ?_) fine_of_cut ended_of_cut
    refine Calm.then (calm_ask rfl) (fun _ _ => ?_) fine_of_cut ended_of_cut
    exact Calm.fine (calm_ask rfl) hd ended_of_cut

theorem wp_turn_turn {s : Unit} (hd : d.expired = false) :
    Wp (survival Text S) i (Worker.turn S) (fun _ _ d => Fine d)
      (fun _ _ d => Ended d) s d := by
  unfold Worker.turn
  apply Wp.bind
  apply Wp.bind
  apply wp_answer
  · intro o
    cases o with
    | none => exact Wp.pure _ (Wp.pure _ (.inl hd))
    | some raw =>
      apply Wp.pure
      cases parse raw with
      | none => exact Wp.pure _ (.inl hd)
      | some t => exact Wp.on t (wp_execute_turn hd)
  · exact fun _ he => absurd he not_false
  · exact fun _ => .inr rfl

/-- How a turn has to be at the end of a process. -/
def Kind.Turned : Kind → Except Exc Returned → Turn → Prop
  | .worker, .ok _, d => Fine d
  | .worker, .error _, d => Ended d
  | _, _, _ => True

theorem survival_body (q : Kind) :
    Safe (survival Text S) i q.Turned ((system Text S).body q) ⟨false, false⟩ := by
  cases q with
  | worker =>
    apply Wp.start
    apply Wp.bind
    exact Wp.mono (wp_turn_turn rfl) (fun _ _ _ h => Wp.pure _ h) fun _ _ _ h => h
  | recover | request body => exact (Monitor.safe_true _).mono fun _ _ _ => trivial

/-- At the end of a turn that was not cut, a worker takes the next turn just when it was not
stopped and its wait for the stream did not end in a timeout or a cancellation. -/
theorem worker_goes_on {tr : List (SysLabel Text Event)} {s s' : SysConfig Text Event}
    {b : Except Exc Returned} (hr : Run (system Text S) anyway (.idle .init) tr s)
    (hs : (system Text S).Step s (.exit i .worker b) s') (hc : cut i tr = false) :
    s'.pool i = some (.worker, (system Text S).body .worker) ↔
      s.world.running = true ∧ expired i tr = false := by
  cases hs with
  | answer hp ha => cases ha
  | @exit _ _ _ w o hp he =>
    have hturn := Monitor.post_of_run Kind.Turned (fun _ => survival_body) hr hp
    simp only [Function.update_self]
    cases b with
    | ok r =>
      obtain ⟨rfl, rfl⟩ := he
      have hf : expired i tr = false := by
        rcases hturn with hf | hf
        · exact hf
        · exact absurd (hc.symm.trans hf) Bool.false_ne_true
      cases s.world.running with
      | true => simp only [↓reduceIte, Option.map_some, hf, and_self]
      | false => simp only [Bool.false_eq_true, ↓reduceIte, Option.map_none, reduceCtorEq,
          false_and]
    | error e =>
      obtain ⟨rfl, rfl⟩ := he
      have hf : expired i tr = true := by
        rcases hturn with hf | hf
        · exact hf
        · exact absurd (hc.symm.trans hf) Bool.false_ne_true
      simp only [Option.map_none, reduceCtorEq, hf, Bool.true_eq_false, and_false]

end

/-- A turn that is about to end well. -/
def goodTurn : Schedule :=
  start ++ create 1 ++ [.spawn 2 .worker] ++ turnToStream 2 0 ++ go 2 8

/-- A turn that is about to end after its stream has run into the limit. -/
def expiredTurn : Schedule :=
  start ++ create 1 ++ [.spawn 2 .worker] ++ turnToStream 2 0 ++ [.cmd 2 .expires] ++ go 2 6

theorem worker_goes_on_good : ∃ tr s b s', DemoRun anyway tr s ∧
    (system Task demo).Step s (.exit 2 .worker b) s' ∧
    s'.pool 2 = some (.worker, (system Task demo).body .worker) := by
  obtain ⟨tr, s, hr, hs⟩ := demoDriver.drive_observe anyway (.idle .init) goodTurn
    (fun o => (returning 2 o.2).map fun b =>
      (cut 2 o.1, o.2.world.running, expired 2 o.1, b.toBool))
    (show _ = some (false, true, false, true) by decide)
  obtain ⟨b, hb, ho⟩ := Option.map_eq_some_iff.1 hs
  obtain ⟨hc, hrun, he, _⟩ := by simpa only [Prod.mk.injEq] using ho
  obtain ⟨s', hstep, _⟩ := step_of_returning hb
  exact ⟨tr, s, b, s', hr, hstep, (worker_goes_on hr hstep hc).2 ⟨hrun, he⟩⟩

theorem not_worker_goes_on : ¬∀ tr s b s', DemoRun anyway tr s →
    (system Task demo).Step s (.exit 2 .worker b) s' → cut 2 tr = false → s.world.running = true →
    s'.pool 2 = some (.worker, (system Task demo).body .worker) := by
  intro h
  obtain ⟨tr, s, hr, hs⟩ := demoDriver.drive_observe anyway (.idle .init) expiredTurn
    (fun o => (returning 2 o.2).map fun b => (cut 2 o.1, o.2.world.running, b.toBool))
    (show _ = some (false, true, false) by decide)
  obtain ⟨b, hb, ho⟩ := Option.map_eq_some_iff.1 hs
  obtain ⟨hc, hrun, hfail⟩ := by simpa only [Prod.mk.injEq] using ho
  obtain ⟨s', hstep, hnone⟩ := step_of_returning hb
  have := h tr s b s' hr hstep hc hrun
  rw [hnone hfail] at this
  cases this

end Orchestrator
