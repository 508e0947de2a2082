import Orchestrator.Progress

namespace Orchestrator
open Concurrency Async
set_option autoImplicit true

/-- Nothing in Redis differs, nor the stage. -/
structure Untouched (w w' : World Text Event) : Prop where
  redis : w'.redis = w.redis
  stage : w'.stage = w.stage

theorem untouched_cancelFuture (w : World Text Event) (n : Nat) :
    Untouched w (w.cancelFuture n) := by
  unfold World.cancelFuture
  split
  · split <;> exact ⟨rfl, rfl⟩
  · exact ⟨rfl, rfl⟩

theorem untouched_giveUp (c : Cmd Text Event) (w : World Text Event) :
    Untouched w (c.giveUp w) := by
  cases c with
  | awaitFuture n timeout => exact untouched_cancelFuture w n
  | _ => exact ⟨rfl, rfl⟩

theorem untouched_cancelHeartbeat (w : World Text Event) (τ : String) :
    Untouched w (w.cancelHeartbeat τ) := by
  unfold World.cancelHeartbeat
  split
  · split <;> exact ⟨rfl, rfl⟩
  · exact ⟨rfl, rfl⟩

/-- A command that raises by itself leaves Redis as it is. -/
theorem untouched_of_error {c : Cmd Text Event} {e : Exc} {w w' : World Text Event}
    (h : exec c (.error e) w w') : Untouched w w' := by
  have hf := exec_error h
  cases c with
  | awaitHeartbeat τ | factoryGet _ _ | projectExists _ | setProjectName _ | checkpointExists _
  | iterEvents _ _ _ =>
    obtain ⟨_, rfl⟩ := h
    exact ⟨rfl, rfl⟩
  | awaitFuture n timeout =>
    obtain ⟨_, _, _, _, _, rfl⟩ | ⟨_, _, rfl⟩ := h
    · exact ⟨rfl, rfl⟩
    · exact untouched_cancelFuture w n
  | _ => exact absurd hf not_false

/-- The index of the projects and the digests do not differ. -/
structure SameIndex (w w' : World Text Event) : Prop where
  projectTasks : w'.redis.projectTasks = w.redis.projectTasks
  digests : w'.redis.digests = w.redis.digests

theorem Untouched.sameIndex {w w' : World Text Event} (h : Untouched w w') : SameIndex w w' :=
  ⟨by rw [h.redis], by rw [h.redis]⟩

theorem Untouched.sameTasks {w w' : World Text Event} (h : Untouched w w') : SameTasks w w' :=
  ⟨by rw [h.redis], by rw [h.redis], h.stage⟩

/-- The commands that leave the indices as they are. -/
def Cmd.indexFree : Cmd Text Event → Bool
  | .sadd .. | .setDigest .. | .delDigest _ => false
  | _ => true

theorem sameIndex_evalRelease (w : World Text Event) (p τ : String) :
    SameIndex w (w.onRedis (·.evalRelease p τ)) := by
  unfold World.onRedis Redis.evalRelease
  dsimp only
  split <;> exact ⟨rfl, rfl⟩

theorem exec_sameIndex {c : Cmd Text Event} {r : c.Answer} {w w' : World Text Event}
    (hc : c.indexFree = true) (h : exec c r w w') : SameIndex w w' := by
  cases c with
  | sadd _ _ | setDigest _ _ | delDigest _ => cases hc
  | setNx _ _ | acquireLock _ _ _ | brpop =>
    simp only [exec] at h
    split at h <;> obtain ⟨_, rfl⟩ := h <;> exact ⟨rfl, rfl⟩
  | evalRelease p τ =>
    obtain ⟨_, rfl⟩ := h
    exact sameIndex_evalRelease w p τ
  | uuid4 =>
    obtain ⟨_, _, _, rfl⟩ := h
    exact ⟨rfl, rfl⟩
  | cancelHeartbeat τ =>
    obtain ⟨_, rfl⟩ := h
    exact (untouched_cancelHeartbeat w τ).sameIndex
  | awaitFuture n timeout =>
    obtain ⟨_, _, _, _, _, rfl⟩ | ⟨_, _, rfl⟩ := h
    · exact ⟨rfl, rfl⟩
    · exact (untouched_cancelFuture w n).sameIndex
  | _ =>
    obtain ⟨_, rfl⟩ := h
    exact ⟨rfl, rfl⟩

theorem tick_sameIndex {S : Setup Event} {e : Tick} {w w' : World Text Event} (h : tick S e w w') :
    SameIndex w w' := by
  obtain ⟨_, _, _, _, hr⟩ := tick_redis h
  exact ⟨by rw [hr], by rw [hr]⟩

theorem mem_projectTasks_sadd {p q id id' : String} {r : Redis Text} :
    id ∈ (r.sadd q id').projectTasks p ↔ p = q ∧ id = id' ∨ id ∈ r.projectTasks p := by
  by_cases hp : p = q
  · subst hp
    simp only [Redis.sadd, Function.update_self, List.mem_insert_iff, true_and]
  · simp only [Redis.sadd, Function.update_of_ne hp, hp, false_and, false_or]

theorem redis_spawn {q : Kind} {w w' : World Text Event} (h : spawn q w w') :
    w'.redis = w.redis := by
  cases q <;> obtain ⟨_, rfl⟩ := h <;> rfl

theorem redis_exit {q : Kind} {b : Except Exc Returned} {w w' : World Text Event} {o : Option Kind}
    (h : exit q b w w' o) : w'.redis = w.redis := by
  cases q <;> cases b <;> obtain ⟨_, rfl⟩ := h <;> rfl

section
variable [TaskJson Text] {S : Setup Event}
  {sp : Kind → World Text Event → World Text Event → Prop}
  {ex : Kind → Except Exc Returned → World Text Event → World Text Event → Option Kind → Prop}
  {i : Nat} {w w' : World Text Event} {l : SysLabel Text Event}

/-- A command is carried out, or it raises and leaves Redis as it is. -/
theorem answer_effect {c : Cmd Text Event} {r : c.Answer}
    (h : (orchestrator Text S sp ex).Answer i c r w w' l) :
    (∃ a, exec c (.ok a) w w' ∧ ∀ b, r = .ok b → b = a) ∨
      (∃ e, r = .error e) ∧ Untouched w w' := by
  cases h with
  | cmd h =>
    cases r with
    | ok a => exact .inl ⟨a, h, fun b hb => (Except.ok.inj hb).symm⟩
    | error e => exact .inr ⟨⟨e, rfl⟩, untouched_of_error h⟩
  | abort h =>
    obtain ⟨e, rfl, _, rfl | ⟨a, ha⟩⟩ := h
    · exact .inr ⟨⟨e, rfl⟩, untouched_giveUp c w⟩
    · exact .inl ⟨a, ha, nofun⟩

theorem answer_sameTasks {c : Cmd Text Event} {r : c.Answer} (hc : c.quiet = true)
    (h : (orchestrator Text S sp ex).Answer i c r w w' l) : SameTasks w w' := by
  rcases answer_effect h with ⟨a, ha, _⟩ | ⟨_, hu⟩
  · exact exec_quiet hc ha
  · exact hu.sameTasks

theorem answer_sameIndex {c : Cmd Text Event} {r : c.Answer} (hc : c.indexFree = true)
    (h : (orchestrator Text S sp ex).Answer i c r w w' l) : SameIndex w w' := by
  rcases answer_effect h with ⟨a, ha, _⟩ | ⟨_, hu⟩
  · exact exec_sameIndex hc ha
  · exact hu.sameIndex

theorem set_effect {id : String} {x : Text} {r : Except Exc Unit}
    (h : (orchestrator Text S sp ex).Answer i (.set id x) r w w' l) :
    w' = w.onRedis (·.set id x) ∨ (∃ e, r = .error e) ∧ Untouched w w' := by
  rcases answer_effect h with ⟨_, ⟨_, rfl⟩, _⟩ | h
  · exact .inl rfl
  · exact .inr h

theorem lpush_effect {x : Text} {r : Except Exc Unit}
    (h : (orchestrator Text S sp ex).Answer i (.lpush x) r w w' l) :
    w' = w.onRedis (·.lpush x) ∨ (∃ e, r = .error e) ∧ Untouched w w' := by
  rcases answer_effect h with ⟨_, ⟨_, rfl⟩, _⟩ | h
  · exact .inl rfl
  · exact .inr h

theorem setNx_effect {id : String} {x : Text} {r : Except Exc Bool}
    (h : (orchestrator Text S sp ex).Answer i (.setNx id x) r w w' l) :
    id ∉ w.redis.tasks ∧ w' = w.onRedis (·.set id x) ∧ r ≠ .ok false ∨
      r ≠ .ok true ∧ Untouched w w' := by
  rcases answer_effect h with ⟨b, ha, hb⟩ | ⟨⟨e, rfl⟩, hu⟩
  · simp only [exec] at ha
    split at ha
    · obtain ⟨he, rfl⟩ := ha
      cases he
      exact .inr ⟨fun hr => Bool.noConfusion (hb true hr), rfl, rfl⟩
    · rename_i hid
      obtain ⟨he, rfl⟩ := ha
      cases he
      exact .inl ⟨hid, rfl, fun hr => Bool.noConfusion (hb false hr)⟩
  · exact .inr ⟨fun hr => (by cases hr), hu⟩

theorem brpop_effect {r : Except Exc (Option Text)}
    (h : (orchestrator Text S sp ex).Answer i .brpop r w w' l) :
    (∃ x, w.redis.queue.getLast? = some x ∧
        w' = w.onRedis (fun q => { q with queue := q.queue.dropLast }) ∧
        ∀ y, r = .ok y → y = some x) ∨
      (∀ x, r ≠ .ok (some x)) ∧ Untouched w w' := by
  rcases answer_effect h with ⟨a, ha, hb⟩ | ⟨⟨e, rfl⟩, hu⟩
  · simp only [exec] at ha
    split at ha
    · obtain ⟨he, rfl⟩ := ha
      cases he
      exact .inr ⟨fun x hr => (Option.some_ne_none x) (hb _ hr), rfl, rfl⟩
    · rename_i x hx
      obtain ⟨he, rfl⟩ := ha
      cases he
      exact .inl ⟨x, hx, rfl, hb⟩
  · exact .inr ⟨fun _ hr => (by cases hr), hu⟩

theorem sadd_effect {p id : String} {r : Except Exc Unit}
    (h : (orchestrator Text S sp ex).Answer i (.sadd p id) r w w' l) :
    w' = w.onRedis (·.sadd p id) ∨ (∃ e, r = .error e) ∧ Untouched w w' := by
  rcases answer_effect h with ⟨_, ⟨_, rfl⟩, _⟩ | h
  · exact .inl rfl
  · exact .inr h

/-- Nothing leaves the index of a project. -/
theorem answer_projectTasks {c : Cmd Text Event} {r : c.Answer} {p id : String}
    (h : (orchestrator Text S sp ex).Answer i c r w w' l) (hid : id ∈ w.redis.projectTasks p) :
    id ∈ w'.redis.projectTasks p := by
  cases c with
  | sadd q id' =>
    rcases sadd_effect h with rfl | ⟨_, hu⟩
    · exact mem_projectTasks_sadd.2 (.inr hid)
    · rwa [hu.redis]
  | setDigest _ _ | delDigest _ =>
    rcases answer_effect h with ⟨_, ⟨_, rfl⟩, _⟩ | ⟨_, hu⟩
    · exact hid
    · rwa [hu.redis]
  | _ => rwa [(answer_sameIndex rfl h).projectTasks]

end

end Orchestrator
