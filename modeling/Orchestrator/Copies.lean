import Orchestrator.Delivery
import Orchestrator.Schedule

namespace Orchestrator
open Concurrency
set_option autoImplicit true

section
variable [TaskJson Text]

/-- A stream ends in a timeout, a cancellation, or another exception that is no `Exception`. -/
def interrupts : SysLabel Text Event → Bool
  | .cmd _ (.iterEvents ..) (.error e) => !e.isException
  | .cmd _ (.awaitFuture ..) (.error e) => e.cls = .timeout || !e.isException
  | _ => false

/-- Moreover, no stream ends in this way. -/
def neverTimesOut : Filter Text Event := fun tr w l w' =>
  steady tr w l w' ∧ interrupts l = false

/-- The entries of a task in the queue. -/
def entries (r : Redis Text) (id : String) : Nat := (r.queued.map Task.taskId).count id

/-- A task that is not finished, nor about to be queued by its request, is in one place. -/
def OneCopy (tr : List (SysLabel Text Event)) (s : SysConfig Text Event) : Prop :=
  ∀ id t, s.world.redis.record id = some t → t.isTerminal = false →
    (∀ i, creating i tr ≠ some id) →
    (entries s.world.redis id = 1 ∧ ∀ i, executing i tr ≠ some id) ∨
      (entries s.world.redis id = 0 ∧
        ∃ i, executing i tr = some id ∧ ∀ j, executing j tr = some id → j = i)

theorem allowed_of_neverTimesOut {tr : List (SysLabel Text Event)} {w w' : World Text Event}
    {l : SysLabel Text Event} (h : neverTimesOut tr w l w') : allowed False False tr w l w' := by
  obtain ⟨hs, ht⟩ := h
  cases l with
  | cmd i c r =>
    cases c with
    | lpush x => exact False.elim
    | iterEvents _ _ _ | awaitFuture _ _ =>
      refine .inr fun e he => ?_
      subst he
      simpa [interrupts] using ht
    | _ => trivial
  | abort i c r => exact absurd hs not_false
  | halt => exact absurd hs not_false
  | _ => trivial

/-- A process executes a live task just when it owns it. -/
theorem Ledger.executing_owned {tr : List (SysLabel Text Event)} {w : World Text Event}
    {own : Nat → Option Task} {id : String} {t : Task} (h : Ledger False False tr w own)
    (hr : w.redis.record id = some t)
    (ht : t.isTerminal = false) (hi : executing i tr = some id) :
    ∃ u, own i = some u ∧ u.taskId = id := by
  rcases (h.linked.resolve_left False.elim).holder i _ hi with ho | ⟨u, hu, hterm⟩
  · exact ho
  · rw [hr] at hu
    cases hu
    rw [ht] at hterm
    cases hterm

theorem Ledger.oneCopy {tr : List (SysLabel Text Event)} {s : SysConfig Text Event}
    {own : Nat → Option Task} (h : Ledger False False tr s.world own) : OneCopy tr s := by
  intro id t hr ht hc
  have hown (i : Nat) (hi : executing i tr = some id) := h.executing_owned hr ht hi
  rcases h.covered.resolve_left False.elim id t hr ht with hq | ⟨i, u, hu, rfl⟩
  · refine .inl ⟨List.count_eq_one_of_mem h.custody.nodup hq, fun i hi => ?_⟩
    obtain ⟨u, hu, rfl⟩ := hown i hi
    exact (h.custody.owner i u hu).2.2 hq
  · refine .inr ⟨List.count_eq_zero.2 (h.custody.owner i u hu).2.2, i, ?_, fun j hj => ?_⟩
    · exact ((h.linked.resolve_left False.elim).owner i u hu).resolve_right (hc i)
    · obtain ⟨v, hv, he⟩ := hown j hj
      exact h.custody.unique j i v u hv hu he

theorem one_copy {S : Setup Event} {tr : List (SysLabel Text Event)} {s : SysConfig Text Event}
    (hr : Run (system Text S) neverTimesOut (.idle .init) tr s) : OneCopy tr s := by
  have hA : (ownership Text S False False).Sound .gone (Kind.Leaves False) World.init :=
    ownership_sound id
  obtain ⟨ds, h⟩ := hA.inv (hr.refine fun _ _ _ _ _ _ hok => allowed_of_neverTimesOut hok)
  exact h.ledger.oneCopy

/-- The process a label belongs to. -/
def actor : SysLabel Text Event → Option Nat
  | .cmd i .. | .abort i .. | .spawn i _ | .exit i .. => some i
  | .env _ | .halt => none

theorem local_actor {l : SysLabel Text Event} {i : Nat} (h : actor l = some i) : Local i l := by
  cases l with
  | cmd j c r =>
    cases h
    exact local_cmd i c r
  | exit j q b =>
    cases h
    exact local_exit i q b
  | abort j c r | spawn j q => exact fun _ _ => ⟨rfl, rfl⟩
  | env e | halt => cases h

/-- Whoever executes or creates a task has taken a step. -/
theorem actor_of_held {tr : List (SysLabel Text Event)} {id : String} {i : Nat}
    (h : executing i tr = some id ∨ creating i tr = some id) : i ∈ tr.filterMap actor := by
  induction tr with
  | nil => rcases h with h | h <;> cases h
  | cons l tr ih =>
    rw [List.filterMap_cons]
    cases ha : actor l with
    | none =>
      apply ih
      cases l with
      | env e => exact h
      | halt => rcases h with h | h <;> cases h
      | cmd j c r | abort j c r | spawn j q | exit j q b => cases ha
    | some j =>
      by_cases hij : i = j
      · exact hij ▸ List.mem_cons_self
      · apply List.mem_cons_of_mem
        apply ih
        rwa [executing_local (local_actor ha) hij, creating_local (local_actor ha) hij] at h

end

instance (tr : List (SysLabel Text Event)) (w : World Text Event) (l : SysLabel Text Event)
    (w' : World Text Event) : Decidable (neverTimesOut tr w l w') :=
  inferInstanceAs (Decidable (steady tr w l w' ∧ interrupts l = false))

/-- A task whose stream asks for a retry. -/
def retrySchedule : Schedule :=
  start ++ create 1 ++ [.spawn 2 .worker] ++ go 2 9 ++
    [.cmd 2 (.yields ⟨[], .error ⟨.retriable, ""⟩⟩)] ++ go 2 1 ++
    [.env (.threadStart 0), .env (.threadEnd 0)] ++ go 2 5

/-- A task whose stream runs into the limit. -/
def timeoutSchedule : Schedule :=
  start ++ create 1 ++ [.spawn 2 .worker] ++ turnToStream 2 0 ++ [.cmd 2 .expires] ++ go 2 6 ++
    [.exit 2]

theorem one_copy_retry : ∃ tr s, DemoRun neverTimesOut tr s ∧
    entries s.world.redis "u" = 1 ∧ OneCopy tr s := by
  obtain ⟨tr, s, hr, hs⟩ := demoDriver.drive_observe neverTimesOut (.idle .init) retrySchedule
    (fun o => some (entries o.2.world.redis "u")) (show _ = some 1 by decide)
  exact ⟨tr, s, hr, Option.some.inj hs, one_copy hr⟩

theorem not_one_copy : ∃ tr s, DemoRun steady tr s ∧ ¬OneCopy tr s := by
  obtain ⟨tr, s, hr, hs⟩ := demoDriver.drive_observe steady (.idle .init) timeoutSchedule
    (fun o => some ((o.2.world.redis.record "u").map Task.isTerminal,
      entries o.2.world.redis "u",
      (o.1.filterMap actor).all fun i => executing i o.1 = none ∧ creating i o.1 = none))
    (show _ = some (some false, 0, true) by decide)
  refine ⟨tr, s, hr, fun h => ?_⟩
  simp only [Option.some.injEq, Prod.mk.injEq, List.all_eq_true, decide_eq_true_eq] at hs
  obtain ⟨hs, hn, hfree⟩ := hs
  have hnone (i : Nat) : executing i tr ≠ some "u" ∧ creating i tr ≠ some "u" := by
    constructor <;> intro hi
    · rw [(hfree i (actor_of_held (.inl hi))).1] at hi
      cases hi
    · rw [(hfree i (actor_of_held (.inr hi))).2] at hi
      cases hi
  obtain ⟨t, ht, hlive⟩ := Option.map_eq_some_iff.1 hs
  rcases h "u" t ht hlive fun i => (hnone i).2 with ⟨h₁, _⟩ | ⟨_, i, hi, _⟩
  · rw [hn] at h₁
    cases h₁
  · exact (hnone i).1 hi

end Orchestrator
