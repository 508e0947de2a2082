import Orchestrator.Delivery
import Orchestrator.Schedule

namespace Orchestrator
open Concurrency
set_option autoImplicit true

variable [TaskJson Text]

def pushed : SysLabel Text Event → Option Text
  | .cmd _ (.lpush x) _ | .abort _ (.lpush x) _ => some x
  | _ => none

/-- Moreover, the recovery adds no task to the queue that is already in it. -/
def recoversOnce : Filter Text Event := fun tr w l w' =>
  connected tr w l w' ∧ ∀ x ∈ pushed l, Unqueued w x

/-- What the life cycle of a task promises from a reached configuration on. -/
structure StatusLaw (S : Setup Event) (ok : Filter Text Event) (tr : List (SysLabel Text Event))
    (s : SysConfig Text Event) : Prop where
  legal : ∀ l s' id t t', (system Text S).Step s l s' → ok tr s.world l s'.world →
    s.world.redis.record id = some t → s'.world.redis.record id = some t' →
    TaskStatus.Legal t.status t'.status
  final : ∀ tr' s' id t, Run.After (system Text S) ok tr s tr' s' →
    s.world.redis.record id = some t → t.isTerminal = true →
    ∃ t', s'.world.redis.record id = some t' ∧ t'.status = t.status

theorem allowed_of_recoversOnce {tr : List (SysLabel Text Event)} {w w' : World Text Event}
    {l : SysLabel Text Event} (h : recoversOnce tr w l w') : allowed True True tr w l w' := by
  obtain ⟨hc, hu⟩ := h
  cases l with
  | cmd i c r =>
    cases c with
    | lpush x => exact fun _ => hu x rfl
    | iterEvents _ _ _ | awaitFuture _ _ => exact .inl trivial
    | _ => trivial
  | abort i c r =>
    refine ⟨trivial, fun e he => ?_, fun x hx => ?_⟩
    · subst he
      exact hc
    · subst hx
      exact hu x rfl
  | _ => trivial

def Settled (w w' : World Text Event) : Prop :=
  ∀ id t, w.redis.record id = some t → ∃ t', w'.redis.record id = some t' ∧
    (t.isTerminal = true → t'.status = t.status)

theorem Settled.refl (w : World Text Event) : Settled w w := fun _ t ht => ⟨t, ht, fun _ => rfl⟩

theorem Settled.trans {u v w : World Text Event} (h : Settled u v) (h' : Settled v w) :
    Settled u w := by
  intro id t ht
  obtain ⟨t', ht', he⟩ := h id t ht
  obtain ⟨t'', ht'', he'⟩ := h' id t' ht'
  refine ⟨t'', ht'', fun hterm => ?_⟩
  have hs := he hterm
  rw [← hs]
  apply he'
  rw [Task.isTerminal, hs]
  exact hterm

theorem Kept.settled {w w' : World Text Event} {l : SysLabel Text Event} (h : Kept w l w') :
    Settled w w' := by
  intro id t ht
  obtain ⟨t', ht', _, hl⟩ := h.kept id t ht
  exact ⟨t', ht', hl.of_terminal⟩

theorem status_law {S : Setup Event} {tr : List (SysLabel Text Event)} {s : SysConfig Text Event}
    (hr : Run (system Text S) recoversOnce (.idle .init) tr s) : StatusLaw S recoversOnce tr s := by
  have hA : (ownership Text S True True).Sound .gone (Kind.Leaves True) World.init :=
    ownership_sound id
  have hr' : Run (system Text S) (allowed True True) (.idle .init) tr s :=
    hr.refine fun _ _ _ _ _ _ hok => allowed_of_recoversOnce hok
  constructor
  · intro l s' id t t' hs hok ht ht'
    obtain ⟨u, hu, _, hl⟩ := hA.guar hr' hs (allowed_of_recoversOnce hok) |>.kept id t ht
    rw [hu] at ht'
    cases ht'
    exact hl
  · intro tr' s' id t ha ht hterm
    have ha' : Run.After (system Text S) (allowed True True) tr s tr' s' :=
      ha.mono fun _ _ _ _ hok => allowed_of_recoversOnce hok
    have hset : Settled s.world s'.world :=
      hA.guar_after hr' Settled.refl (fun _ _ _ => .trans) (fun _ _ _ => Kept.settled) ha'
    obtain ⟨t', ht', he⟩ := hset id t ht
    exact ⟨t', ht', he hterm⟩

instance (w : World Text Event) (x : Text) : Decidable (Unqueued w x) :=
  inferInstanceAs (Decidable (w.stage = .recovering →
    ∀ t ∈ parse x, t.taskId ∉ w.redis.queued.map Task.taskId))

instance (tr : List (SysLabel Text Event)) (w : World Text Event) (l : SysLabel Text Event)
    (w' : World Text Event) : Decidable (recoversOnce tr w l w') :=
  inferInstanceAs (Decidable (connected tr w l w' ∧ ∀ x ∈ pushed l, Unqueued w x))

def statusOf (s : SysConfig Task String) (id : String) : Option TaskStatus :=
  (s.world.redis.record id).map Task.status

/-- A task whose worker is lost in a crash, and that the next worker finishes. -/
def crashSchedule : Schedule :=
  start ++ create 1 ++ [.spawn 2 .worker] ++ turnToStream 2 0 ++
    [.halt, .env (.expire "p"), .spawn 0 .recover] ++ go 0 5 ++
    [.exit 0, .spawn 2 .worker] ++ turnToStream 2 0 ++ turnFromStream 2

/-- A task that a crash leaves in the queue, where the recovery adds it once more. -/
def doubleSchedule : Schedule :=
  start ++ create 1 ++ [.halt, .spawn 0 .recover] ++ go 0 3 ++ [.exit 0, .spawn 2 .worker] ++
    turnToStream 2 0 ++ turnFromStream 2 ++ go 2 8

theorem status_law_crash : ∃ tr s, DemoRun recoversOnce tr s ∧
    statusOf s "u" = some .success ∧ StatusLaw demo recoversOnce tr s := by
  obtain ⟨tr, s, hr, hs⟩ := demoDriver.drive_observe recoversOnce (.idle .init) crashSchedule
    (fun o => statusOf o.2 "u") (show _ = some TaskStatus.success by decide)
  exact ⟨tr, s, hr, hs, status_law hr⟩

theorem not_status_law : ∃ tr s, DemoRun connected tr s ∧
    ¬StatusLaw demo connected tr s := by
  obtain ⟨tr, s, hr, ho⟩ := demoDriver.drive_observe connected (.idle .init) doubleSchedule
    (fun o => (demoDriver.step o.2 (.cmd 2 .auto)).bind fun o' =>
      if connected o.1 o.2.world o'.1 o'.2.world then
        some (statusOf o.2 "u", statusOf o'.2 "u") else none)
    (show _ = some (some TaskStatus.success, some TaskStatus.running) by decide)
  refine ⟨tr, s, hr, fun h => ?_⟩
  obtain ⟨⟨l, s'⟩, hs, ho⟩ := Option.bind_eq_some_iff.1 ho
  split at ho
  · rename_i hok
    obtain ⟨h₁, h₂⟩ := Prod.mk.inj (Option.some.inj ho)
    obtain ⟨t, ht, he⟩ := Option.map_eq_some_iff.1 h₁
    obtain ⟨t', ht', he'⟩ := Option.map_eq_some_iff.1 h₂
    have hl := h.legal l s' "u" t t' (demoDriver.step_sound hs) hok ht ht'
    rw [he, he'] at hl
    cases hl
  · cases ho

end Orchestrator
