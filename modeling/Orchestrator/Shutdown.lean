import Orchestrator.Schedule
import Orchestrator.Footprint
import Orchestrator.Progress
import Orchestrator.Concurrency.Budget

namespace Orchestrator
open Concurrency Async
set_option autoImplicit true

/-- A worker asks for a task. -/
def Cmd.pops : Cmd Text Event → Bool
  | .brpop => true
  | _ => false

/-- A worker asks once in each turn. -/
def Kind.pops : Kind → Nat
  | .worker => 1
  | _ => 0

/-- The program is shutting down: no worker is started, and neither is the program. -/
def windingDown : Filter Text Event := fun _ _ l _ =>
  match l with
  | .spawn _ .worker | .spawn _ .recover => False
  | _ => True

/-- The tasks that process `i` has asked for. -/
def askedFor (i : Nat) (tr : List (SysLabel Text Event)) : Nat := spent Cmd.pops i tr

/-- The task that process `i` has yet to ask for. -/
def toAsk (i : Nat) (tr : List (SysLabel Text Event)) (s : SysConfig Text Event) : Nat :=
  spare Kind.pops ((spending Cmd.Answer Cmd.pops).read i tr) (s.pool i)

section
variable {w w' : World Text Event}

theorem running_cancelFuture (w : World Text Event) (n : Nat) :
    (w.cancelFuture n).running = w.running := by
  unfold World.cancelFuture
  split
  · split <;> rfl
  · rfl

theorem running_exec {c : Cmd Text Event} {r : c.Answer} (h : exec c r w w') :
    w'.running = w.running := by
  cases c with
  | setNx _ _ | brpop | acquireLock _ _ _ =>
    simp only [exec] at h
    split at h <;> obtain ⟨_, rfl⟩ := h <;> rfl
  | uuid4 =>
    obtain ⟨_, _, _, rfl⟩ := h
    rfl
  | cancelHeartbeat τ =>
    obtain ⟨_, rfl⟩ := h
    unfold World.cancelHeartbeat
    split
    · split <;> rfl
    · rfl
  | awaitFuture n timeout =>
    obtain ⟨_, _, _, _, _, rfl⟩ | ⟨_, _, rfl⟩ := h
    · rfl
    · exact running_cancelFuture _ n
  | _ =>
    obtain ⟨_, rfl⟩ := h
    rfl

theorem running_abort {c : Cmd Text Event} {r : c.Answer} (h : abort c r w w') :
    w'.running = w.running := by
  obtain ⟨_, _, _, rfl | ⟨_, h⟩⟩ := h
  · cases c with
    | awaitFuture n timeout => exact running_cancelFuture w n
    | _ => rfl
  · exact running_exec h

theorem running_tick {S : Setup Event} {e : Tick} (h : tick S e w w') (hw : w.running = false) :
    w'.running = false := by
  cases e with
  | expire p =>
    obtain ⟨_, rfl⟩ := h
    exact hw
  | refresh τ held =>
    obtain ⟨_, _, _, _, rfl⟩ := h
    exact hw
  | elapse p | beat τ | threadStart n =>
    obtain ⟨_, _, _, rfl⟩ := h
    exact hw
  | beatFails τ e | threadEnd n =>
    obtain ⟨_, _, _, _, rfl⟩ := h
    exact hw
  | threadPublish n =>
    obtain ⟨_, _, _, _, _, _, _, _, rfl⟩ := h
    exact hw
  | threadFails n e =>
    obtain ⟨_, _, _, _, _, _, rfl⟩ := h
    exact hw
  | stop =>
    cases h
    rfl

end

namespace Shutdown

abbrev Popless (p : Py Text Event σ α) : Prop := Asks (fun c => c.pops = false) p

theorem popless_ask {c : Cmd Text Event} (hc : c.pops = false) :
    Popless (ask c : Py Text Event σ c.Reply) := asks hc

variable [TaskJson Text] {S : Setup Event}

theorem pops_of_locked {c : Cmd Text Event} (h : c.locked) : c.pops = false := by
  cases c with
  | brpop => exact absurd h.2 not_false
  | _ => rfl

theorem popless_execute : Popless (Worker.execute S : Py Text Event Task _) := by
  apply within_bind within_object
  intro t
  apply within_bind (popless_ask rfl)
  intro τ
  apply within_bind (popless_ask rfl)
  intro b
  split
  · apply within_bind (popless_ask rfl)
    intro _
    apply within_ensure (asks_guarded.mono fun _ => pops_of_locked)
    exact asks_cleanUp (fun _ => rfl) (fun _ => rfl) (fun _ _ => rfl) _ _
  · apply within_bind (popless_ask rfl)
    intro _
    exact within_bind (popless_ask rfl) fun _ => popless_ask rfl

theorem atMost_turn : AtMost Cmd.pops 1 (Worker.turn S : Py Text Event Unit _) := by
  have hdequeue : AtMost Cmd.pops 1 (TaskQueue.dequeue : Py Text Event Unit _) := by
    apply atMost_bind (n := 0) (atMost_call _)
    intro o
    apply atMost_of_within
    cases o with
    | none => exact within_pure _
    | some raw => exact within_pure _
  apply atMost_bind (n := 0) hdequeue
  intro o
  apply atMost_of_within
  cases o with
  | none => exact within_pure _
  | some t => exact within_on t popless_execute

theorem atMost_body (q : Kind) :
    ((system Text S).body q).AtMost Cmd.pops q.pops := by
  have hnone {c : Cmd Text Event} (h : c.recovery ∨ c.request) : c.pops = false := by
    cases c with
    | brpop => exact h.elim (fun h => absurd h.2 not_false) fun h => absurd h.2 not_false
    | _ => rfl
  apply AtMost.start
  cases q with
  | recover =>
    apply atMost_of_within
    exact within_bind (asks_recoverStrandedTasks.mono fun _ h => hnone (.inl h))
      fun _ => within_pure _
  | worker =>
    exact atMost_bind (n := 0) atMost_turn fun _ => atMost_of_within (within_pure _)
  | request body =>
    apply atMost_of_within
    exact within_bind ((asks_createTask body).mono fun _ h => hnone (.inr h)) fun _ => within_pure _

variable {tr tr' : List (SysLabel Text Event)} {s s' : SysConfig Text Event}
  {l : SysLabel Text Event}

theorem stopped_step (hs : (system Text S).Step s l s') (hw : s.world.running = false)
    (hok : windingDown tr s.world l s'.world) : s'.world.running = false := by
  cases hs with
  | answer _ ha =>
    cases ha with
    | cmd h => exact (running_exec h).trans hw
    | abort h => exact (running_abort h).trans hw
  | @spawn i q w _ h =>
    cases q with
    | recover | worker => exact absurd hok not_false
    | request body => exact (congrArg World.running h.2).trans hw
  | @exit i q b w o _ h =>
    cases q with
    | recover => cases b <;> exact (congrArg World.running h.2).trans hw
    | worker => cases b <;> exact (congrArg World.running h.2).trans hw
    | request body => exact (congrArg World.running h.2).trans hw
  | env h => exact running_tick h hw
  | halt h => exact congrArg World.running h

theorem frugal_of_windingDown {w w' : World Text Event} (hw : w.running = false)
    (hok : windingDown tr w l w') : (system Text S).Frugal Kind.pops w l where
  spawn i q hl := by
    subst hl
    cases q with
    | recover | request _ => rfl
    | worker => exact absurd hok not_false
  exit q b w' o h := by
    have ho : o = none := by
      cases q with
      | recover => cases b <;> exact h.1
      | worker =>
        cases b with
        | ok _ =>
          rw [h.1, hw]
          rfl
        | error _ => exact h.1
      | request _ => exact h.1
    subst ho
    exact fun _ hq => nomatch hq

end Shutdown

/-- Once the workers are told to stop, each of them asks for one more task at most, and only if it
had still to ask in its turn. Nothing else asks for one, whatever happens. -/
theorem shutdown_law [TaskJson Text] {S : Setup Event} {tr tr' : List (SysLabel Text Event)}
    {s s' : SysConfig Text Event} (hr : Run (system Text S) anyway (.idle .init) tr s)
    (hstop : s.world.running = false) (ha : Run.After (system Text S) windingDown tr s tr' s')
    (i : Nat) : askedFor i tr' + toAsk i tr' s' ≤ askedFor i tr + toAsk i tr s := by
  suffices h : s'.world.running = false ∧ AllSolvent Cmd.pops Kind.pops tr' s' ∧
      askedFor i tr' + toAsk i tr' s' ≤ askedFor i tr + toAsk i tr s from h.2.2
  induction ha with
  | refl => exact ⟨hstop, allSolvent_of_run Shutdown.atMost_body hr, Nat.le_refl _⟩
  | cons _ hs hok ih =>
    obtain ⟨hw, hsol, hle⟩ := ih
    refine ⟨Shutdown.stopped_step hs hw hok, hsol.step Shutdown.atMost_body hs, ?_⟩
    exact (hsol.balance hs (Shutdown.frugal_of_windingDown hw hok) i).trans hle

instance (tr : List (SysLabel Text Event)) (w : World Text Event) (l : SysLabel Text Event)
    (w' : World Text Event) : Decidable (windingDown tr w l w') :=
  match l with
  | .spawn _ .worker | .spawn _ .recover => isFalse id
  | .spawn _ (.request _) | .cmd .. | .abort .. | .exit .. | .env _ | .halt => isTrue trivial

/-- Two workers are stopped before they ask. One takes the task and executes it, and is gone. -/
theorem shutdown_law_last : ∃ tr s tr' s', DemoRun anyway tr s ∧ s.world.running = false ∧
    Run.After (system Task demo) windingDown tr s tr' s' ∧ askedFor 2 tr' = 1 ∧
    (s'.pool 2).isNone = true ∧
    askedFor 2 tr' + toAsk 2 tr' s' ≤ askedFor 2 tr + toAsk 2 tr s := by
  obtain ⟨tr, s, tr', s', hr, ha, ho⟩ := demoDriver.stepper.observe_after anyway windingDown
    (.idle .init) (start ++ create 1 ++ [.spawn 2 .worker, .spawn 3 .worker, .env .stop])
    (turnToStream 2 0 ++ go 2 8 ++ [.exit 2])
    (fun o o' => some (o.2.world.running, askedFor 2 o'.1, (o'.2.pool 2).isNone))
    (show _ = some (false, 1, true) by decide)
  obtain ⟨hstop, ho⟩ := Prod.mk.inj (Option.some.inj ho)
  obtain ⟨hasked, hnone⟩ := Prod.mk.inj ho
  exact ⟨tr, s, tr', s', hr, hstop, ha, hasked, hnone, shutdown_law hr hstop ha 2⟩

end Orchestrator
