import Orchestrator.Effect
import Orchestrator.Rehearsal
import Orchestrator.Schedule

namespace Orchestrator
open Concurrency Async
set_option autoImplicit true

/-- The recovery, the workers and the requests as what publishes to the streams. -/
def tasks (Text : Type) [TaskJson Text] (S : Setup Event) :
    Source Text (SysConfig Text Event) (SysLabel Text Event) where
  step b l b' := (system Text S).Step b l b'
  record b id := b.world.redis.tasks.lookup id
  published b := b.world.redis.published

/-- The streams of a server beside its workers. -/
abbrev server (Text : Type) [TaskJson Text] (S : Setup Event) (W : Wire) :
    Machine SseCmd (SseCmd.Answer Text) (Except Exc Streamed) (Hub (SysConfig Text Event)) SseKind
      (SysLabel Text Event) :=
  streams (tasks Text S) W

section
variable [TaskJson Text] (G : Source Text B L)

/-- The stored record of the task is that of a success or of a failure. -/
def Source.terminal (b : B) (id : String) : Bool :=
  ((G.record b id).bind parse).any Task.isTerminal

/-- How often the stream of the task has been closed by the source. -/
def Source.closes (b : B) (id : String) : Nat := (G.published b).count (channel id, doneMessage)

end

/-- What a step of the workers publishes. -/
inductive Publishes (S : Setup Event) :
    SysLabel Text Event → List (String × String) → Prop where
  | nothing (l : SysLabel Text Event) : Publishes S l []
  | command (i : Nat) (ch data : String) (r : Except Exc Unit) :
      Publishes S (.cmd i (.publish ch data) r) [(ch, data)]
  | cut (i : Nat) (ch data : String) (r : Except Exc Unit) :
      Publishes S (.abort i (.publish ch data) r) [(ch, data)]
  | event (n : Nat) (ch : String) (he : S.encode ev = .ok data) :
      Publishes S (.env (.threadPublish n)) [(ch, data)]

section
variable {c : Cmd Text Event} {r : c.Answer} {w w' : World Text Event}

theorem exec_published (hc : ∀ ch data, c ≠ .publish ch data) (h : exec c r w w') :
    w'.redis.published = w.redis.published := by
  cases c with
  | publish ch data => exact absurd rfl (hc ch data)
  | setNx _ _ | acquireLock _ _ _ | brpop =>
    simp only [exec] at h
    split at h <;> obtain ⟨_, rfl⟩ := h <;> rfl
  | evalRelease p τ =>
    obtain ⟨_, rfl⟩ := h
    unfold World.onRedis Redis.evalRelease
    dsimp only
    split <;> rfl
  | uuid4 =>
    obtain ⟨_, _, _, rfl⟩ := h
    rfl
  | cancelHeartbeat τ =>
    obtain ⟨_, rfl⟩ := h
    rw [(untouched_cancelHeartbeat w τ).redis]
  | awaitFuture n timeout =>
    obtain ⟨_, _, _, _, _, rfl⟩ | ⟨_, _, rfl⟩ := h
    · rfl
    · rw [(untouched_cancelFuture w n).redis]
  | _ =>
    obtain ⟨_, rfl⟩ := h
    rfl

theorem answer_published [TaskJson Text] {S : Setup Event} {i : Nat} {l : SysLabel Text Event}
    (ha : (system Text S).Answer i c r w w' l) : ∃ messages, Publishes S l messages ∧
      w'.redis.published = w.redis.published ++ messages := by
  have hnothing (h : w'.redis.published = w.redis.published) : ∃ messages,
      Publishes S l messages ∧ w'.redis.published = w.redis.published ++ messages :=
    ⟨[], .nothing l, by rw [h, List.append_nil]⟩
  by_cases hc : ∃ ch data, c = .publish ch data
  · obtain ⟨ch, data, rfl⟩ := hc
    cases ha with
    | cmd hx =>
      obtain ⟨-, rfl⟩ := hx
      exact ⟨_, .command i ch data _, rfl⟩
    | abort hx =>
      obtain ⟨e, -, -, rfl | ⟨a, -, rfl⟩⟩ := hx
      · exact hnothing rfl
      · exact ⟨_, .cut i ch data _, rfl⟩
  · have hc (ch data : String) : c ≠ .publish ch data := fun he => hc ⟨ch, data, he⟩
    apply hnothing
    cases ha with
    | cmd hx => exact exec_published hc hx
    | abort hx =>
      obtain ⟨e, -, -, rfl | ⟨a, hx⟩⟩ := hx
      · rw [(untouched_giveUp c w).redis]
      · exact exec_published hc hx

theorem tick_published [TaskJson Text] {S : Setup Event} {e : Tick} (h : tick S e w w') :
    ∃ messages, Publishes S (.env e : SysLabel Text Event) messages ∧
      w'.redis.published = w.redis.published ++ messages := by
  have hnothing (h : w'.redis.published = w.redis.published) : ∃ messages,
      Publishes S (.env e : SysLabel Text Event) messages ∧
        w'.redis.published = w.redis.published ++ messages :=
    ⟨[], .nothing _, by rw [h, List.append_nil]⟩
  cases e with
  | threadPublish n =>
    obtain ⟨th, ev, rest, data, -, -, -, hd, rfl⟩ := h
    exact ⟨_, .event n _ hd, rfl⟩
  | refresh τ held =>
    obtain ⟨hb, _, _, _, rfl⟩ := h
    apply hnothing
    unfold World.onRedis Redis.evalRefresh
    dsimp only
    split <;> rfl
  | expire p =>
    obtain ⟨_, rfl⟩ := h
    exact hnothing rfl
  | elapse p | beat τ | threadStart n =>
    obtain ⟨_, _, _, rfl⟩ := h
    exact hnothing rfl
  | beatFails τ e | threadEnd n =>
    obtain ⟨_, _, _, _, rfl⟩ := h
    exact hnothing rfl
  | threadFails n e =>
    obtain ⟨_, _, _, _, _, _, rfl⟩ := h
    exact hnothing rfl
  | stop =>
    obtain rfl := h
    exact hnothing rfl

theorem step_published [TaskJson Text] {S : Setup Event} {b b' : SysConfig Text Event}
    {l : SysLabel Text Event} (hs : (system Text S).Step b l b') : ∃ messages,
    Publishes S l messages ∧ b'.world.redis.published = b.world.redis.published ++ messages := by
  cases hs with
  | answer _ ha => exact answer_published ha
  | spawn _ hq => exact ⟨[], .nothing _, by rw [redis_spawn hq, List.append_nil]⟩
  | exit _ he => exact ⟨[], .nothing _, by rw [redis_exit he, List.append_nil]⟩
  | env he => exact tick_published he
  | halt hh =>
    obtain rfl := hh
    exact ⟨[], .nothing _, (List.append_nil _).symm⟩

end

section
variable [TaskJson Text] {S : Setup Event} {W : Wire}

/-- The steps of the source in a run of its streams. -/
def sourceTrace : List (SseLabel Text L) → List L
  | [] => []
  | .env e :: tr => e :: sourceTrace tr
  | _ :: tr => sourceTrace tr

theorem sourceTrace_answer {i : Nat} {c : SseCmd} {r : c.Answer Text} {G : Source Text B L}
    {h h' : Hub B} {l : SseLabel Text L} (ha : (streams G W).Answer i c r h h' l)
    (tr : List (SseLabel Text L)) : sourceTrace (l :: tr) = sourceTrace tr := by
  cases ha <;> rfl

/-- The workers take no notice of the streams. -/
theorem source_run {ok : StepFilter SseCmd (SseCmd.Answer Text) (Except Exc Streamed)
      (Hub (SysConfig Text Event)) SseKind (SysLabel Text Event)} {ok' : Filter Text Event}
    {b₀ : SysConfig Text Event} {tr : List (SseLabel Text (SysLabel Text Event))}
    {s : SseConfig Text (SysConfig Text Event)}
    (hok : ∀ tr h e h', ok tr h (.env e) h' →
      ok' (sourceTrace tr) h.base.world e h'.base.world)
    (hr : Run (server Text S W) ok (.idle (Hub.start b₀)) tr s) :
    Run (system Text S) ok' b₀ (sourceTrace tr) s.world.base := by
  induction hr with
  | nil => exact .nil
  | cons hr hs h ih =>
    cases hs with
    | answer _ ha => rwa [sourceTrace_answer ha, sse_answer_base ha]
    | spawn _ hq =>
      obtain ⟨-, rfl⟩ := hq
      exact ih
    | exit _ he =>
      obtain ⟨rfl, -⟩ := he
      exact ih
    | env he =>
      have hok' := hok _ _ _ _ h
      obtain ⟨b, messages, hstep, -, rfl⟩ := he
      exact .cons ih hstep hok'
    | halt hh =>
      obtain rfl := hh
      exact ih

/-- Schedules of the streams alone. -/
def streamDriver (S : Setup Event) (W : Wire) : Driver (server Text S W) SseHint :=
  sseDriver (tasks Text S) W (fun _ _ => none) fun _ _ _ h => by cases h

/-- A step of the streams, or one of the workers whose messages are delivered. -/
def serverNext (D : Driver (system Text S) X) (W : Wire) :
    Choice SseHint SseKind (SysLabel Text Event) ⊕ Choice X Kind Tick →
      SseConfig Text (SysConfig Text Event) →
      Option (SseLabel Text (SysLabel Text Event) × SseConfig Text (SysConfig Text Event))
  | .inl ch, s => (streamDriver S W).step s ch
  | .inr ch, s =>
    (D.step s.world.base ch).bind fun o =>
      (sseForward (tasks Text S) o.2 s.world).map fun h => (.env o.1, ⟨h, s.pool⟩)

theorem serverNext_sound (D : Driver (system Text S) X)
    {y : Choice SseHint SseKind (SysLabel Text Event) ⊕ Choice X Kind Tick}
    {s s' : SseConfig Text (SysConfig Text Event)} {l : SseLabel Text (SysLabel Text Event)}
    (h : serverNext D W y s = some (l, s')) : (server Text S W).Step s l s' := by
  cases y with
  | inl ch => exact Driver.step_sound _ h
  | inr ch =>
    obtain ⟨⟨l', b⟩, hb, h⟩ := Option.bind_eq_some_iff.1 h
    obtain ⟨h', hf, he⟩ := Option.map_eq_some_iff.1 h
    cases he
    exact .env (sseForward_step (D.step_sound hb) hf)

def serverStepper (D : Driver (system Text S) X) (W : Wire) :
    Stepper (server Text S W)
      (Choice SseHint SseKind (SysLabel Text Event) ⊕ Choice X Kind Tick) where
  next := serverNext D W
  sound := serverNext_sound D

end

/-! Schedules of the small deployment with its streams. -/

def demoWire : Wire where
  sseKeepaliveInterval := 15
  dumps _ := ""
  loads _ := .error "Expecting value: line 1 column 1 (char 0)"
  str _ := ""

abbrev ServerSchedule (Event : Type) : Type :=
  List (Choice SseHint SseKind (SysLabel Task Event) ⊕ Choice (Hint Event) Kind Tick)

/-- A part of a schedule that only the workers take. -/
def work (chs : List (Choice (Hint Event) Kind Tick)) : ServerSchedule Event := chs.map .inr

/-- The next `n` commands of stream `i`. -/
def attend (i n : Nat) : ServerSchedule Event := List.replicate n (.inl (.cmd i .auto))

/-- A request for the stream of a task, up to its subscription. -/
def look (i : Nat) (id : String) : ServerSchedule Event :=
  .inl (.spawn i (.stream id)) :: attend i 1

/-- The subscription, and the first turn of the loop. -/
def listen (i : Nat) : ServerSchedule Event := attend i 2 ++ [.inl (.exit i)]

/-- A task that a worker has brought to its stream. -/
def taskToStream : Schedule := start ++ create 1 ++ [.spawn 2 .worker] ++ turnToStream 2 0

end Orchestrator
