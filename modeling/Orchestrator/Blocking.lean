import Orchestrator.Concurrency.EventLoop
import Orchestrator.Schedule

namespace Orchestrator
open Concurrency Async Relation
set_option autoImplicit true

/-! `TaskStore.update` and `Worker._stream` as they use asyncio, threads included. -/

abbrev ThreadCode (Text Event : Type) : Type := Code (Cmd Text Event) Cmd.Answer Exc

abbrev AppLoop (Text Event : Type) : Type := Loop (Cmd Text Event) Cmd.Answer Exc (World Text Event)

/-- Redis answers every command, and so does the engine. -/
def host (env : World Text Event → World Text Event → Prop) :
    Host (Cmd Text Event) Cmd.Answer Exc (World Text Event) where
  exec := exec
  env := env
  noRunningLoop := ⟨.runtime, "no running event loop"⟩
  timeout := ⟨.timeout, ""⟩

section
variable [TaskJson Text]

def TaskStore.update (S : Setup Event) (task : Task) : ThreadCode Text Event :=
  .getRunningLoop (.orRaise (.runCoroutineThreadsafe
    (.ofCoro (Async.start (asyncUpdate S task) ())) fun future => .result future .ret))

/-- What `update` is for, when it is called in the thread of the loop. -/
structure Updates (env : World Text Event → World Text Event → Prop) (S : Setup Event)
    (task : Task) (s : AppLoop Text Event) : Prop where
  returns : ∃ s', Loop.Call (host env) s (TaskStore.update S task) (.ok ()) s'
  stored : ∀ o s', Loop.Call (host env) s (TaskStore.update S task) o s' →
    o = .ok () ∧ s'.world.redis.record task.taskId = some task ∧
      (task.isTerminal = true → task.requirement ≠ "" →
        s'.world.redis.digests (digestKey S task.projectName task.requirement) = none)

variable {env : World Text Event → World Text Event → Prop} {S : Setup Event} {task : Task}
  {s s' : AppLoop Text Event}

theorem update_outcome (h : Loop.Call (host env) s (TaskStore.update S task) o s') :
    o = .error (host env).timeout := Loop.call_own_loop h

theorem Updates.false (h : Updates env S task s) : False := by
  obtain ⟨_, hc⟩ := h.returns
  cases update_outcome hc

/-- Called in the thread of the loop, `update` writes nothing before it fails with a timeout,
whatever there is to do for the loop. -/
theorem update_never (env : World Text Event → World Text Event → Prop) (S : Setup Event)
    (task : Task) (s : AppLoop Text Event) : ¬Updates env S task s ∧
      (∀ o s', Loop.Call (host env) s (TaskStore.update S task) o s' →
        o = .error (host env).timeout) ∧
      ∃ s', Loop.Call (host env) s (TaskStore.update S task) (.error (host env).timeout) s' ∧
        s'.world = s.world :=
  ⟨Updates.false, fun _ _ => update_outcome, Loop.exists_call_own_loop s _⟩

end

/-- Nobody else changes anything. -/
def quiet (w w' : World Text Event) : Prop := w' = w

/-- A loop with nothing to do. -/
def idleLoop : AppLoop Task String where
  world := .init
  running := none
  ready := []
  suspended := []
  executor := []
  done := []

def demoTask : Task where
  taskId := "u"
  projectName := "p"
  requirement := "r"
  status := .running
  createdAt := 0
  updatedAt := 0

theorem not_updates : ¬Updates quiet demo demoTask idleLoop := Updates.false

namespace EventBus

def publish (S : Setup Event) (taskId : String) (event : Event) : ThreadCode Text Event :=
  match S.encode event with
  | .error exc => .ret (.error exc)
  | .ok payload => .await (.publish (channel taskId) payload) .ret

end EventBus

namespace Worker

/-- The loop of `_consume_sync` over the events of the iterator. -/
def consumeEvents (S : Setup Event) (taskId : String) (ending : Except Exc Unit) :
    List Event → ThreadCode Text Event
  | [] => .ret ending
  | event :: events => .runCoroutineThreadsafe (EventBus.publish S taskId event) fun future =>
      .result future (.orRaise (consumeEvents S taskId ending events))

def consumeSync (S : Setup Event) (task : Task) (it : Iter Event) : ThreadCode Text Event :=
  .getRunningLoop (.orRaise (consumeEvents S task.taskId it.ending it.events))

/-- What `_stream` raises for an exception of the future that it awaits. -/
def streamExc (S : Setup Event) (exc : Exc) : Exc :=
  if exc.cls = .timeout then
    ⟨.cancelled, s!"stream timeout after {S.reprFloat S.settings.streamTimeout}s"⟩
  else exc

/-- `_stream` with the thread that it starts. The wait has no time limit here. -/
def streamInLoop (S : Setup Event) (mode : TaskMode) (task : Task) : ThreadCode Text Event :=
  .getRunningLoop (.orRaise (.call (.iterEvents mode task.projectName task.requirement) fun
    | .error exc => .ret (.error exc)
    | .ok it => .runInExecutor (consumeSync S task it) fun future =>
        .wait future fun o => .ret (o.mapError (streamExc S))))

end Worker

/-- The engine gives this iterator. -/
def Yields (it : Iter Event) : (c : Cmd Text Event) → c.Answer → Prop
  | .iterEvents .., r => r = .ok it
  | _, _ => True

def streamHost (env : World Text Event → World Text Event → Prop) (it : Iter Event) :
    Host (Cmd Text Event) Cmd.Answer Exc (World Text Event) where
  exec c r w w' := exec c r w w' ∧ Yields it c r
  env := env
  noRunningLoop := (host env).noRunningLoop
  timeout := (host env).timeout

/-- The messages on the channel of a task that came in between two worlds. -/
def Published (taskId : String) (w w' : World Text Event) (data : List String) : Prop :=
  ∃ new, w'.redis.published = w.redis.published ++ new ∧
    (new.filter (·.1 = channel taskId)).map (·.2) = data

/-- `_stream` in a callback of the loop, with future `f`. -/
def streaming (S : Setup Event) (mode : TaskMode) (task : Task) (f : Nat)
    (s : AppLoop Text Event) : AppLoop Text Event :=
  { s with running := some (f, Worker.streamInLoop S mode task) }

/-- What a call of `_stream` with this future is for, when the engine's iterator yields these
events and ends. -/
structure StreamsAs (env : World Text Event → World Text Event → Prop) (S : Setup Event)
    (mode : TaskMode) (task : Task) (events : List Event) (f : Nat) (s : AppLoop Text Event) :
    Prop where
  returns : ∃ s', ReflTransGen (Loop.Step (streamHost env ⟨events, .ok ()⟩))
    (streaming S mode task f s) s' ∧ (f, .ok ()) ∈ s'.done
  forwards : ∀ o s', ReflTransGen (Loop.Step (streamHost env ⟨events, .ok ()⟩))
    (streaming S mode task f s) s' → (f, o) ∈ s'.done → o = .ok () ∧
      ∃ data, data.map Except.ok = events.map S.encode ∧
        Published task.taskId s.world s'.world data

def Streams (env : World Text Event → World Text Event → Prop) (S : Setup Event)
    (mode : TaskMode) (task : Task) (events : List Event) (s : AppLoop Text Event) : Prop :=
  ∀ f, f ∉ s.used → StreamsAs env S mode task events f s

section
variable {env : World Text Event → World Text Event → Prop} {S : Setup Event} {mode : TaskMode}
  {task : Task} {it : Iter Event} {s s' : AppLoop Text Event}

theorem doomed_stream : Loop.Doomed (streamHost env it) (· = (host env).noRunningLoop)
    (fun _ => False) (Worker.streamInLoop S mode task : ThreadCode Text Event) := by
  rintro r w w' ⟨-, hr⟩
  cases hr
  exact ⟨⟨_, rfl⟩, fun n => ⟨.inl rfl, _, rfl, rfl⟩⟩

/-- The thread of the executor has no loop, so `_stream` raises before the first event. -/
theorem stream_outcome (hf : f ∉ s.used) (hr : ReflTransGen (Loop.Step (streamHost env it))
    (streaming S mode task f s) s') (ho : (f, o) ∈ s'.done) :
    o = .error (host env).noRunningLoop := by
  have hnot (x : Loop.Place (Cmd Text Event) Cmd.Answer Exc) (hx : Loop.At s f x) : False :=
    hf (Loop.mem_used.2 ⟨x, hx⟩)
  have hs : Loop.Condemned (streamHost env it) (· = (host env).noRunningLoop)
      (streaming S mode task f s) f := by
    refine ⟨Loop.mem_used.2 ⟨.running _, rfl⟩, fun x hx => ?_⟩
    cases x with
    | running p =>
      cases hx
      exact ⟨fun _ => False, fun _ h => h.elim, doomed_stream⟩
    | ready p => exact (hnot (.ready p) hx).elim
    | suspended p => exact (hnot (.suspended p) hx).elim
    | executor p => exact hnot (.executor p) hx
    | done o => exact (hnot (.done o) hx).elim
  obtain ⟨e, rfl, rfl⟩ := Loop.error_of_doomed hr hs ho
  rfl

theorem Streams.false {events : List Event} (h : Streams env S mode task events s) : False := by
  obtain ⟨f, hf⟩ := s.exists_unused
  obtain ⟨_, hr, ho⟩ := (h f hf).returns
  cases stream_outcome hf hr ho

/-- Whatever the engine yields, `_stream` can only end with the error that a thread of the executor
gets for asking for the running loop. -/
theorem stream_never (env : World Text Event → World Text Event → Prop) (S : Setup Event)
    (mode : TaskMode) (task : Task) (events : List Event) (s : AppLoop Text Event) :
    ¬Streams env S mode task events s ∧
      ∀ f, f ∉ s.used → ∀ o s', ReflTransGen (Loop.Step (streamHost env ⟨events, .ok ()⟩))
        (streaming S mode task f s) s' → (f, o) ∈ s'.done →
          o = .error (host env).noRunningLoop :=
  ⟨Streams.false, fun _ hf _ _ => stream_outcome hf⟩

end

theorem not_streams : ¬Streams quiet demo .new demoTask ["e"] idleLoop := Streams.false

end Orchestrator
