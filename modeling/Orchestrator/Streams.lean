import Orchestrator.Concurrency.Pool
import Orchestrator.Events

namespace Orchestrator
open Concurrency Async
set_option autoImplicit true

theorem channel_inj {id id' : String} : channel id = channel id' ↔ id = id' :=
  String.append_right_inj _

/-- A message as `get_message` gives it. -/
structure Message where
  type : String
  data : String
  deriving DecidableEq

/-- What a stream asks of Redis, of the loop, and of the connection to its client. -/
inductive SseCmd where
  | get (id : String)
  | subscribe (channel : String)
  | time
  | getMessage
  | sleep
  | isDisconnected
  | send (frame : Frame)
  | publish (channel data : String)
  | unsubscribe (channel : String)
  deriving DecidableEq

/-- The type of a reply. A wait for a message that runs into its limit gives none. -/
@[reducible] def SseCmd.Reply (Text : Type) : SseCmd → Type
  | .get _ => Option Text
  | .time => Rat
  | .getMessage => Option Message
  | .isDisconnected => Bool
  | _ => Unit

abbrev SseCmd.Answer (Text : Type) (c : SseCmd) : Type := Except Exc (c.Reply Text)

abbrev Sse (Text α : Type) : Type := Async SseCmd (SseCmd.Reply Text) Exc Unit α

def askSse (c : SseCmd) : Sse Text (c.Reply Text) := Async.call c

/-- Where a request for a stream has got to. -/
inductive Streamed where
  | notFound
  | empty
  | opened (lastYieldTime : Rat)
  | again (lastYieldTime : Rat)
  | ended
  | disconnected
  deriving DecidableEq

/-- What `_event_generator` does with an event. -/
def yieldEvent (W : Wire) (taskId : String) (now : Rat) (event : EventProxy) :
    Sse Text Streamed := do
  let gone : Bool ← askSse .isDisconnected
  if gone then
    return .disconnected
  else
    let frame ← ofExcept (buildSseFrame W event)
    askSse (.send (.event frame))
    if isTerminalEvent frame.event then
      askSse (.publish (channel taskId) doneMessage)
      return .ended
    else
      return .again now

/-- What `_event_generator` does when there has been no event for some time. -/
def yieldKeepalive (now : Rat) : Sse Text Streamed := do
  let gone : Bool ← askSse .isDisconnected
  if gone then
    return .disconnected
  else
    askSse (.send .keepalive)
    return .again now

/-- One turn of the loop of `subscribe`, its consumer included. -/
def pollMessage (W : Wire) (taskId : String) (lastYieldTime : Rat) : Sse Text Streamed := do
  let msg : Option Message ← askSse .getMessage
  let now : Rat ← askSse .time
  match msg with
  | none =>
    if W.sseKeepaliveInterval ≤ now - lastYieldTime then
      yieldKeepalive now
    else
      askSse .sleep
      return .again lastYieldTime
  | some msg =>
    if msg.type ≠ "message" then
      return .again lastYieldTime
    else if msg.data = doneMessage then
      return .ended
    else
      match W.loads msg.data with
      | .error _ => return .again lastYieldTime
      | .ok raw =>
        let event ← ofExcept (EventBus.proxy raw)
        yieldEvent W taskId now event

/-- The `finally` of `subscribe`. -/
def leaveChannel (taskId : String) : Sse Text Unit := do
  match ← attempt (askSse (.unsubscribe (channel taskId))) with
  | .ok _ => return
  | .error exc => if exc.isException then return else raise exc

/-- A turn of the loop after which the stream goes on, or the subscription is given up. -/
def poll (W : Wire) (taskId : String) (lastYieldTime : Rat) : Sse Text Streamed := do
  match ← attempt (pollMessage W taskId lastYieldTime) with
  | .ok (.again now) => return .again now
  | .ok out => do
    leaveChannel taskId
    return out
  | .error exc => do
    leaveChannel taskId
    raise exc

/-- `GET /tasks/{task_id}/stream` up to the loop. -/
def streamTask [TaskJson Text] (taskId : String) : Sse Text Streamed := do
  match ← askSse (.get taskId) with
  | none => return .notFound
  | some raw =>
    match modelValidateJson raw with
    | .error msg => raise ⟨.value, msg⟩
    | .ok task =>
      if task.isTerminal then
        return .empty
      else
        askSse (.subscribe (channel taskId))
        let lastYieldTime : Rat ← askSse .time
        return .opened lastYieldTime

/-- What publishes events beside the streams: its steps, the records it stores, and the messages
it has published so far. -/
structure Source (Text B L : Type) where
  step : B → L → B → Prop
  record : B → String → Option Text
  published : B → List (String × String)

/-- The streams of a server beside a source. Each subscription has the messages that it has not
delivered yet. -/
structure Hub (B : Type) where
  base : B
  inbox : Nat → Option (String × List String)

namespace Hub

def start (b : B) : Hub B := ⟨b, fun _ => none⟩

def setInbox (h : Hub B) (i : Nat) (o : Option (String × List String)) : Hub B :=
  { h with inbox := Function.update h.inbox i o }

/-- Every subscription to its channel gets a message. -/
def deliver (h : Hub B) (messages : List (String × String)) : Hub B :=
  { h with inbox := fun i => (h.inbox i).map fun s =>
      (s.1, s.2 ++ (messages.filter (·.1 = s.1)).map (·.2)) }

theorem deliver_inbox (h : Hub B) (messages : List (String × String)) (i : Nat) :
    (h.deliver messages).inbox i = (h.inbox i).map fun s =>
      (s.1, s.2 ++ (messages.filter (·.1 = s.1)).map (·.2)) := rfl

@[simp] theorem deliver_nil (h : Hub B) : h.deliver [] = h := by
  have hs : (fun s : String × List String => (s.1, s.2 ++ [])) = id := by
    funext s
    rw [List.append_nil]
    rfl
  simp only [deliver, List.filter_nil, List.map_nil, hs, Option.map_id, id]

end Hub

inductive SseKind where
  | stream (taskId : String)
  | poll (taskId : String) (lastYieldTime : Rat)

def SseKind.run [TaskJson Text] (W : Wire) : SseKind → Sse Text Streamed
  | .stream taskId => streamTask taskId
  | .poll taskId lastYieldTime => Orchestrator.poll W taskId lastYieldTime

/-- The replies of a command, with its effect. -/
def sseExec (G : Source Text B L) (i : Nat) (c : SseCmd) (r : c.Answer Text) (h h' : Hub B) :
    Prop :=
  match c, r with
  | .get id, r => r = .ok (G.record h.base id) ∧ h' = h
  | .subscribe ch, r => r = .ok () ∧ h' = h.setInbox i (some (ch, []))
  | .getMessage, r => r = .ok none ∧ h' = h ∨ ∃ ch data rest, h.inbox i = some (ch, data :: rest) ∧
      r = .ok (some ⟨"message", data⟩) ∧ h' = h.setInbox i (some (ch, rest))
  | .time, r => (∃ t, r = .ok t) ∧ h' = h
  | .isDisconnected, r => (∃ b, r = .ok b) ∧ h' = h
  | .publish ch data, r => r = .ok () ∧ h' = h.deliver [(ch, data)]
  | .unsubscribe _, r => r = .ok () ∧ h' = h.setInbox i none
  | .sleep, r | .send _, r => r = .ok () ∧ h' = h

/-- A command is cut short by a cancellation, which is how a client that leaves is noticed, or by
a connection that fails. It may have had its effect. -/
def sseAbort (G : Source Text B L) (i : Nat) (c : SseCmd) (r : c.Answer Text) (h h' : Hub B) :
    Prop :=
  c ≠ .time ∧ ∃ e : Exc, r = .error e ∧ (e.cls = .cancelled ∨ e.cls = .other) ∧
    (h' = h ∨ ∃ a, sseExec G i c (.ok a) h h')

/-- The messages that a command publishes. -/
def SseCmd.publishes : SseCmd → List (String × String)
  | .publish ch data => [(ch, data)]
  | _ => []

/-- The next turn of a stream that goes on. -/
def nextPoll (q : SseKind) (b : Except Exc Streamed) : Option SseKind :=
  match q, b with
  | .stream taskId, .ok (.opened lastYieldTime) => some (.poll taskId lastYieldTime)
  | .poll taskId _, .ok (.again lastYieldTime) => some (.poll taskId lastYieldTime)
  | _, _ => none

/-- The source takes a step, and what it publishes is delivered. -/
def sourceStep (G : Source Text B L) (l : L) (h h' : Hub B) : Prop :=
  ∃ b messages, G.step h.base l b ∧ G.published b = G.published h.base ++ messages ∧
    h' = { h.deliver messages with base := b }

def streams [TaskJson Text] (G : Source Text B L) (W : Wire) :
    Machine SseCmd (SseCmd.Answer Text) (Except Exc Streamed) (Hub B) SseKind L where
  body q := start (q.run W) ()
  exec := sseExec G
  abort := sseAbort G
  spawn q h h' := (∃ taskId, q = .stream taskId) ∧ h' = h
  exit q b h h' o := h' = h ∧ o = nextPoll q b
  env := sourceStep G
  halt h h' := h' = { h with inbox := fun _ => none }

section
variable {G : Source Text B L} {W : Wire} {i j : Nat} {c : SseCmd} {r : c.Answer Text}
  {h h' : Hub B}

theorem sseExec_base (hx : sseExec G j c r h h') : h'.base = h.base := by
  cases c with
  | getMessage => obtain ⟨-, rfl⟩ | ⟨_, _, _, -, -, rfl⟩ := hx <;> rfl
  | get _ | subscribe _ | time | sleep | isDisconnected | send _ | publish _ _ | unsubscribe _ =>
    obtain ⟨-, rfl⟩ := hx
    rfl

/-- Another subscription gets what is published, and nothing else happens to it. -/
theorem sseExec_inbox (hx : sseExec G j c r h h') (hj : j ≠ i) :
    h'.inbox i = (h.deliver c.publishes).inbox i := by
  have hset (o : Option (String × List String)) : (h.setInbox j o).inbox i = h.inbox i :=
    Function.update_of_ne hj.symm ..
  have hnil : h.inbox i = (h.deliver []).inbox i := by rw [Hub.deliver_nil]
  cases c with
  | publish ch data =>
    obtain ⟨rfl, rfl⟩ := hx
    rfl
  | subscribe ch | unsubscribe ch =>
    obtain ⟨rfl, rfl⟩ := hx
    exact (hset _).trans hnil
  | getMessage =>
    obtain ⟨rfl, rfl⟩ | ⟨ch, data, rest, _, rfl, rfl⟩ := hx
    · exact hnil
    · exact (hset _).trans hnil
  | get _ | time | sleep | isDisconnected | send _ =>
    obtain ⟨_, rfl⟩ := hx
    exact hnil

theorem sse_answer_base [TaskJson Text]
    {l : Label SseCmd (SseCmd.Answer Text) (Except Exc Streamed) SseKind L}
    (ha : (streams G W).Answer j c r h h' l) : h'.base = h.base := by
  cases ha with
  | cmd hx => exact sseExec_base hx
  | abort hx =>
    obtain ⟨-, _, -, -, rfl | ⟨a, hx⟩⟩ := hx
    · rfl
    · exact sseExec_base hx

theorem sse_answer_inbox [TaskJson Text]
    {l : Label SseCmd (SseCmd.Answer Text) (Except Exc Streamed) SseKind L}
    (ha : (streams G W).Answer j c r h h' l) (hj : j ≠ i) : ∃ messages,
    h'.inbox i = (h.deliver messages).inbox i ∧ (l = .cmd j c r ∧ messages = c.publishes ∨
      l = .abort j c r ∧ (messages = [] ∨ messages = c.publishes)) := by
  cases ha with
  | cmd hx => exact ⟨_, sseExec_inbox hx hj, .inl ⟨rfl, rfl⟩⟩
  | abort hx =>
    obtain ⟨_, _, _, _, rfl | ⟨a, hx⟩⟩ := hx
    · exact ⟨[], by rw [Hub.deliver_nil], .inr ⟨rfl, .inl rfl⟩⟩
    · exact ⟨_, sseExec_inbox hx hj, .inr ⟨rfl, .inr rfl⟩⟩

end

abbrev SseLabel (Text L : Type) : Type :=
  Label SseCmd (SseCmd.Answer Text) (Except Exc Streamed) SseKind L

abbrev SseConfig (Text B : Type) : Type :=
  Config SseCmd (SseCmd.Answer Text) (Except Exc Streamed) (Hub B) SseKind

end Orchestrator
