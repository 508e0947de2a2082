import Orchestrator.System
import Orchestrator.Concurrency.Logic

namespace Orchestrator
open Concurrency
set_option autoImplicit true

theorem wp_tryExcept {M : Machine (Cmd Text Event) Cmd.Answer β σ K E} {A : Assertion M δ}
    {p : Py Text Event τ α} {h : Exc → Py Text Event τ α}
    (hp : Wp A i p Q (fun e s d => (e.isException = true → Wp A i (h e) Q X s d) ∧
      (e.isException = false → X e s d)) s d) :
    Wp A i (tryExcept p h) Q X s d := by
  apply Wp.bind
  apply Wp.attempt
  apply Wp.mono hp
  · intro a s d ha
    exact Wp.pure _ ha
  · rintro e s d ⟨h₁, h₂⟩
    cases he : e.isException with
    | true => simpa only [he, ↓reduceIte] using h₁ he
    | false => simpa only [he, Bool.false_eq_true, ↓reduceIte] using Wp.raise _ (h₂ he)

theorem wp_check {M : Machine (Cmd Text Event) Cmd.Answer β σ K E} {A : Assertion M δ}
    {p : Py Text Event τ Bool}
    (hp : Wp A i p Q (fun e s d => e.isException = true ∧ Q false s d) s d) :
    Wp A i (Scheduler.check p) Q X s d := by
  apply wp_tryExcept
  apply Wp.mono hp
  · exact fun _ _ _ h => h
  · rintro e s d ⟨he, h⟩
    refine ⟨fun _ => Wp.pure _ h, fun he' => ?_⟩
    rw [he] at he'
    cases he'

/-- Nothing that concerns tasks, the queue or the stage differs. -/
structure SameTasks (w w' : World Text Event) : Prop where
  tasks : w'.redis.tasks = w.redis.tasks
  queue : w'.redis.queue = w.redis.queue
  stage : w'.stage = w.stage

theorem SameTasks.refl (w : World Text Event) : SameTasks w w := ⟨rfl, rfl, rfl⟩

theorem SameTasks.record [TaskJson Text] {w w' : World Text Event} (h : SameTasks w w') :
    w'.redis.record = w.redis.record := by
  funext id
  unfold Redis.record
  rw [h.tasks]

theorem SameTasks.queued [TaskJson Text] {w w' : World Text Event} (h : SameTasks w w') :
    w'.redis.queued = w.redis.queued := by
  unfold Redis.queued
  rw [h.queue]

theorem sameTasks_cancelFuture (w : World Text Event) (n : Nat) :
    SameTasks w (w.cancelFuture n) := by
  unfold World.cancelFuture
  split
  · split
    · exact ⟨rfl, rfl, rfl⟩
    · exact .refl w
  · exact .refl w

theorem sameTasks_cancelHeartbeat (w : World Text Event) (τ : String) :
    SameTasks w (w.cancelHeartbeat τ) := by
  unfold World.cancelHeartbeat
  split
  · split
    · exact .refl w
    · exact ⟨rfl, rfl, rfl⟩
  · exact .refl w

def Cmd.quiet : Cmd Text Event → Bool
  | .setNx .. | .set .. | .lpush _ | .brpop => false
  | _ => true

theorem exec_quiet {c : Cmd Text Event} {r : c.Answer} {w w' : World Text Event}
    (hc : c.quiet = true) (h : exec c r w w') : SameTasks w w' := by
  cases c with
  | setNx _ _ | set _ _ | lpush _ | brpop => cases hc
  | acquireLock p τ ttl =>
    simp only [exec] at h
    split at h <;> obtain ⟨_, rfl⟩ := h <;> exact ⟨rfl, rfl, rfl⟩
  | evalRelease p τ =>
    obtain ⟨_, rfl⟩ := h
    exact ⟨Redis.evalRelease_tasks .., Redis.evalRelease_queue .., rfl⟩
  | uuid4 =>
    obtain ⟨_, _, _, rfl⟩ := h
    exact ⟨rfl, rfl, rfl⟩
  | cancelHeartbeat τ =>
    obtain ⟨_, rfl⟩ := h
    exact sameTasks_cancelHeartbeat _ τ
  | awaitFuture n timeout =>
    obtain ⟨_, _, _, _, _, rfl⟩ | ⟨_, _, rfl⟩ := h
    · exact .refl _
    · exact sameTasks_cancelFuture _ n
  | _ =>
    obtain ⟨_, rfl⟩ := h
    exact ⟨rfl, rfl, rfl⟩

theorem giveUp_quiet (c : Cmd Text Event) (w : World Text Event) : SameTasks w (c.giveUp w) := by
  cases c with
  | awaitFuture n timeout => exact sameTasks_cancelFuture w n
  | _ => exact .refl w

/-- What happens by itself changes nothing in Redis but the locks and what is published. -/
theorem tick_redis {S : Setup Event} {e : Tick} {w w' : World Text Event} (h : tick S e w w') :
    w'.usedIds = w.usedIds ∧ w'.stage = w.stage ∧ ∃ locks published,
      w'.redis = { w.redis with locks := locks, published := published } := by
  cases e with
  | expire p =>
    obtain ⟨_, rfl⟩ := h
    exact ⟨rfl, rfl, _, _, rfl⟩
  | refresh τ held =>
    obtain ⟨hb, _, _, _, rfl⟩ := h
    refine ⟨rfl, rfl, (w.redis.evalRefresh hb.projectName τ S.settings.lockTtl).locks,
      w.redis.published, ?_⟩
    show w.redis.evalRefresh hb.projectName τ S.settings.lockTtl = _
    rw [Redis.evalRefresh]
    split <;> rfl
  | elapse p | beat τ | threadStart n =>
    obtain ⟨_, _, _, rfl⟩ := h
    exact ⟨rfl, rfl, _, _, rfl⟩
  | beatFails τ e | threadEnd n =>
    obtain ⟨_, _, _, _, rfl⟩ := h
    exact ⟨rfl, rfl, _, _, rfl⟩
  | threadPublish n =>
    obtain ⟨_, _, _, _, _, _, _, _, rfl⟩ := h
    exact ⟨rfl, rfl, _, _, rfl⟩
  | threadFails n e =>
    obtain ⟨_, _, _, _, _, _, rfl⟩ := h
    exact ⟨rfl, rfl, _, _, rfl⟩
  | stop =>
    cases h
    exact ⟨rfl, rfl, _, _, rfl⟩

theorem tick_usedIds {S : Setup Event} {e : Tick} {w w' : World Text Event} (h : tick S e w w') :
    w'.usedIds = w.usedIds := (tick_redis h).1

theorem tick_quiet {S : Setup Event} {e : Tick} {w w' : World Text Event} (h : tick S e w w') :
    SameTasks w w' := by
  obtain ⟨_, hstage, _, _, hr⟩ := tick_redis h
  exact ⟨by rw [hr], by rw [hr], hstage⟩

/-- The exceptions that a command raises by itself. -/
def Cmd.fails (F : Prop) : Cmd Text Event → Exc → Prop
  | .awaitHeartbeat _, _ => True
  | .factoryGet .., e | .projectExists _, e | .setProjectName _, e | .checkpointExists _, e =>
    e.isException = true
  | .iterEvents .., e => F ∨ e.isException = true
  | .awaitFuture .., e => F ∨ e.cls ≠ .timeout ∧ e.isException = true
  | _, _ => False

/-- The commands that raise only when they are cut short. -/
def Cmd.plain : Cmd Text Event → Bool
  | .setNx .. | .set .. | .lpush _ | .brpop | .awaitHeartbeat _ | .factoryGet ..
  | .projectExists _ | .setProjectName _ | .checkpointExists _ | .iterEvents ..
  | .awaitFuture .. => false
  | _ => true

/-- The commands that never raise. -/
def Cmd.sure : Cmd Text Event → Bool
  | .delDigest _ | .now | .uuid4 | .log _ | .createHeartbeat .. | .cancelHeartbeat _
  | .runInExecutor .. => true
  | _ => false

/-- Calls of the engine that a check or the start of an execution makes. -/
def Cmd.external : Cmd Text Event → Bool
  | .factoryGet .. | .projectExists _ | .setProjectName _ | .checkpointExists _ => true
  | _ => false

theorem isException_of_external {c : Cmd Text Event} (hc : c.external = true) {F : Prop}
    {e : Exc} (h : c.fails F e) : e.isException = true := by
  cases c with
  | factoryGet _ _ | projectExists _ | setProjectName _ | checkpointExists _ => exact h
  | _ => cases hc

def Raises (F : Prop) (c : Cmd Text Event) (e : Exc) : Prop :=
  F ∧ c.awaited = true ∧ e.cls = .cancelled ∨ c.fails F e

theorem quiet_of_plain {c : Cmd Text Event} (hc : c.plain = true) : c.quiet = true := by
  cases c with
  | setNx _ _ | set _ _ | lpush _ | brpop => cases hc
  | _ => rfl

theorem not_fails_of_plain {c : Cmd Text Event} (hc : c.plain = true) (F : Prop) (e : Exc) :
    ¬c.fails F e := by
  intro h
  cases c with
  | setNx _ _ | set _ _ | lpush _ | brpop | awaitHeartbeat _ | factoryGet _ _
  | projectExists _ | setProjectName _ | checkpointExists _ | iterEvents _ _ _
  | awaitFuture _ _ => cases hc
  | _ => exact h

theorem plain_of_sure {c : Cmd Text Event} (hc : c.sure = true) : c.plain = true := by
  cases c with
  | delDigest _ | now | uuid4 | log _ | createHeartbeat _ _ | cancelHeartbeat _
  | runInExecutor _ _ _ => rfl
  | _ => cases hc

theorem not_awaited_of_sure {c : Cmd Text Event} (hc : c.sure = true) : c.awaited = false := by
  cases c with
  | delDigest _ | now | uuid4 | log _ | createHeartbeat _ _ | cancelHeartbeat _
  | runInExecutor _ _ _ => rfl
  | _ => cases hc

theorem isException_of_raises {F : Prop} {c : Cmd Text Event} (hw : c.awaited = false)
    (hf : c.fails F e → e.isException = true) (h : Raises F c e) : e.isException = true := by
  rcases h with ⟨_, hw', _⟩ | h
  · rw [hw] at hw'
    cases hw'
  · exact hf h

theorem exec_error {c : Cmd Text Event} {e : Exc} {w w' : World Text Event}
    (h : exec c (.error e) w w') : c.fails True e := by
  cases c with
  | awaitHeartbeat τ => trivial
  | iterEvents _ _ _ | awaitFuture _ _ => exact .inl trivial
  | factoryGet _ _ | projectExists _ | setProjectName _ | checkpointExists _ => exact h.1 e rfl
  | setNx id x | brpop =>
    simp only [exec] at h
    split at h <;> cases h.1
  | acquireLock p τ ttl =>
    simp only [exec] at h
    split at h <;> cases h.1.1
  | smembers p | scan =>
    obtain ⟨⟨_, hr, _⟩, _⟩ := h
    cases hr
  | uuid4 =>
    obtain ⟨_, _, hr, _⟩ := h
    cases hr
  | now =>
    obtain ⟨⟨_, hr⟩, _⟩ := h
    cases hr
  | _ => cases h.1

/-- Runs without any restriction. -/
def anyway : Filter Text Event := fun _ _ _ _ => True

/-- Redis answers every command. A process may be cancelled while it waits. -/
def connected : Filter Text Event := fun _ _ l _ =>
  match l with
  | .abort _ _ (.error e) => e.cls = .cancelled
  | _ => True

/-- One live process whose commands are all carried out. -/
def steady : Filter Text Event := fun _ _ l _ =>
  match l with
  | .abort .. | .halt => False
  | _ => True

instance (tr : List (SysLabel Text Event)) (w : World Text Event) (l : SysLabel Text Event)
    (w' : World Text Event) : Decidable (anyway tr w l w') := isTrue trivial

instance (tr : List (SysLabel Text Event)) (w : World Text Event) (l : SysLabel Text Event)
    (w' : World Text Event) : Decidable (connected tr w l w') :=
  match l with
  | .abort _ _ (.error e) => inferInstanceAs (Decidable (e.cls = .cancelled))
  | .abort _ _ (.ok _) | .cmd .. | .spawn .. | .exit .. | .env _ | .halt => isTrue trivial

instance (tr : List (SysLabel Text Event)) (w : World Text Event) (l : SysLabel Text Event)
    (w' : World Text Event) : Decidable (steady tr w l w') :=
  match l with
  | .abort .. | .halt => isFalse id
  | .cmd .. | .spawn .. | .exit .. | .env _ => isTrue trivial

end Orchestrator
