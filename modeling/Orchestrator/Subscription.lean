import Orchestrator.Streams

namespace Orchestrator
open Concurrency Async Python
set_option autoImplicit true

/-- What `json.loads` raises on a text: a `JSONDecodeError`, a plain `ValueError` for an integer of
too many digits, or a `RecursionError` for brackets that are nested too deeply. A `TypeError` is for
what is not a text. -/
inductive JsonExc where
  | decodeError (msg : String)
  | typeError (msg : String)
  | valueError (msg : String)
  | recursionError (msg : String)

namespace JsonExc

/-- `except (json.JSONDecodeError, TypeError)`. -/
def caught : JsonExc → Bool
  | .decodeError _ | .typeError _ => true
  | .valueError _ | .recursionError _ => false

def exc : JsonExc → Exc
  | .decodeError msg | .valueError msg => ⟨.value, msg⟩
  | .typeError msg => ⟨.other, msg⟩
  | .recursionError msg => ⟨.runtime, msg⟩

end JsonExc

/-- The interval between keepalives, and `json.loads`. -/
structure Bus where
  keepaliveInterval : Rat
  loads : String → Except JsonExc Json

/-- What a turn of the loop of `subscribe` comes to. -/
inductive BusTurn where
  | sleep
  | keepalive
  | skip
  | done
  | event (event : EventProxy)
  | raises (exc : Exc)

/-- Where the generator is when it has been through the messages there are. -/
inductive Listening where
  | waiting
  | returned
  | raised (exc : Exc)
  deriving DecidableEq

namespace EventBus

/-- What `subscribe` does with a message. -/
def heed (B : Bus) (msg : Message) : BusTurn :=
  if msg.type ≠ "message" then .skip
  else if msg.data = doneMessage then .done
  else
    match B.loads msg.data with
    | .error e => if e.caught then .skip else .raises e.exc
    | .ok raw =>
      match proxy raw with
      | .ok event => .event event
      | .error exc => .raises exc

/-- One turn of the loop, after a wait that has given a message or none. -/
def turn (B : Bus) (lastYieldTime now : Rat) : Option Message → BusTurn
  | none => if B.keepaliveInterval ≤ now - lastYieldTime then .keepalive else .sleep
  | some msg => heed B msg

/-- The loop of `subscribe`: what it yields, and where it gets to, for what the waits for a message
give and the times after them. -/
def subscribe (B : Bus) (lastYieldTime : Rat) :
    List (Option Message × Rat) → List (Option EventProxy) × Listening
  | [] => ([], .waiting)
  | (msg, now) :: polls =>
    match turn B lastYieldTime now msg with
    | .sleep | .skip => subscribe B lastYieldTime polls
    | .keepalive =>
      let rest := subscribe B now polls
      (none :: rest.1, rest.2)
    | .done => ([], .returned)
    | .event event =>
      let rest := subscribe B now polls
      (some event :: rest.1, rest.2)
    | .raises exc => ([], .raised exc)

end EventBus

namespace Message

def isDone (msg : Message) : Bool := msg.type = "message" ∧ msg.data = doneMessage

/-- The event of a message that is the text of an object, with the fields of that object. -/
def event (B : Bus) (msg : Message) : Option EventProxy :=
  if msg.type = "message" then
    match B.loads msg.data with
    | .ok (.obj fields) => some {
        eventType := dictGet fields "event_type" (.str "info")
        message := dictGet fields "message" (.str "")
        metadata := dictGet fields "metadata" (.obj [])
        timestamp := dictGet fields "timestamp" (.str "") }
    | _ => none
  else none

/-- A text that is JSON but not of an object, or that `json.loads` fails on in a way that the guard
does not know. -/
def unguarded (B : Bus) (msg : Message) : Bool :=
  msg.type = "message" &&
    match B.loads msg.data with
    | .ok (.obj _) => false
    | .ok _ => true
    | .error e => !e.caught

end Message

/-- The messages that come before the first sentinel. -/
def beforeDone (messages : List Message) : List Message := messages.takeWhile fun msg => !msg.isDone

/-- What the waits for a message have given. -/
def arrived (polls : List (Option Message × Rat)) : List Message := polls.filterMap Prod.fst

/-- What a subscriber is promised. -/
structure SubscriptionLaw (B : Bus) (lastYieldTime : Rat) (polls : List (Option Message × Rat)) :
    Prop where
  events : (EventBus.subscribe B lastYieldTime polls).1.filterMap id =
    (beforeDone (arrived polls)).filterMap (Message.event B)
  ending : (EventBus.subscribe B lastYieldTime polls).2 =
    if (arrived polls).any Message.isDone then .returned else .waiting

/-- What a turn of the loop comes to for what the wait has given. -/
inductive Turned (B : Bus) : Option Message → BusTurn → Prop where
  | sleep : Turned B none .sleep
  | keepalive : Turned B none .keepalive
  | done (hd : msg.isDone = true) : Turned B (some msg) .done
  | skip (hd : msg.isDone = false) (hu : msg.unguarded B = false) (he : msg.event B = none) :
      Turned B (some msg) .skip
  | event (hd : msg.isDone = false) (hu : msg.unguarded B = false) (he : msg.event B = some e) :
      Turned B (some msg) (.event e)
  | raises (hd : msg.isDone = false) (hu : msg.unguarded B = true) :
      Turned B (some msg) (.raises exc)

section
variable {B : Bus} {msg : Message}

theorem turned_heed (B : Bus) (msg : Message) : Turned B (some msg) (EventBus.heed B msg) := by
  unfold EventBus.heed
  split
  · rename_i ht
    exact .skip (by simp [Message.isDone, ht]) (by simp [Message.unguarded, ht])
      (by simp [Message.event, ht])
  · rename_i ht
    have ht := not_not.1 ht
    split
    · rename_i hd
      exact .done (by simp [Message.isDone, ht, hd])
    · rename_i hd
      have hd : msg.isDone = false := by simp [Message.isDone, hd]
      split
      · rename_i e hl
        have he : msg.event B = none := by simp [Message.event, hl]
        split
        · rename_i hc
          exact .skip hd (by simp [Message.unguarded, hl, hc]) he
        · rename_i hc
          exact .raises hd (by simp [Message.unguarded, ht, hl, hc])
      · rename_i raw hl
        cases raw with
        | obj fields =>
          exact .event hd (by simp [Message.unguarded, hl]) (by simp [Message.event, ht, hl])
        | _ => exact .raises hd (by simp [Message.unguarded, ht, hl])

theorem turned (B : Bus) (last now : Rat) (msg : Option Message) :
    Turned B msg (EventBus.turn B last now msg) := by
  cases msg with
  | none =>
    dsimp only [EventBus.turn]
    split
    · exact .keepalive
    · exact .sleep
  | some msg => exact turned_heed B msg

theorem beforeDone_done {messages : List Message} (hd : msg.isDone = true) :
    beforeDone (msg :: messages) = [] := by
  rw [beforeDone, List.takeWhile_cons, hd]
  rfl

theorem beforeDone_cons {messages : List Message} (hd : msg.isDone = false) :
    beforeDone (msg :: messages) = msg :: beforeDone messages := by
  rw [beforeDone, List.takeWhile_cons, hd]
  rfl

theorem arrived_some {now : Rat} {polls : List (Option Message × Rat)} :
    arrived ((some msg, now) :: polls) = msg :: arrived polls := rfl

/-- A message that the guard does not cover ends the generator with an exception. -/
theorem raised_of_unguarded (last : Rat) {polls : List (Option Message × Rat)}
    (h : ∃ msg ∈ beforeDone (arrived polls), msg.unguarded B = true) :
    ∃ exc, (EventBus.subscribe B last polls).2 = .raised exc := by
  induction polls generalizing last with
  | nil =>
    obtain ⟨_, hm, -⟩ := h
    cases hm
  | cons poll polls ih =>
    obtain ⟨msg, now⟩ := poll
    have hrest {m : Message} (hd : m.isDone = false) (hu : m.unguarded B = false)
        (h : ∃ msg ∈ beforeDone (arrived ((some m, now) :: polls)), msg.unguarded B = true) :
        ∃ msg ∈ beforeDone (arrived polls), msg.unguarded B = true := by
      rw [arrived_some, beforeDone_cons hd] at h
      obtain ⟨msg, hm, hu'⟩ := h
      rcases List.mem_cons.1 hm with rfl | hm
      · cases hu.symm.trans hu'
      · exact ⟨msg, hm, hu'⟩
    have ht := turned B last now msg
    rw [EventBus.subscribe]
    generalize EventBus.turn B last now msg = turn at ht
    cases ht with
    | sleep => exact ih _ h
    | keepalive => exact ih _ h
    | done hd =>
      rw [arrived_some, beforeDone_done hd] at h
      obtain ⟨_, hm, -⟩ := h
      cases hm
    | skip hd hu _ => exact ih _ (hrest hd hu h)
    | event hd hu _ => exact ih _ (hrest hd hu h)
    | raises _ _ => exact ⟨_, rfl⟩

/-- Where the guard covers every message, each turn of the loop keeps what is promised. -/
theorem subscription_of_guarded {last : Rat} {polls : List (Option Message × Rat)}
    (h : ∀ msg ∈ beforeDone (arrived polls), msg.unguarded B = false) :
    SubscriptionLaw B last polls := by
  induction polls generalizing last with
  | nil => exact ⟨rfl, rfl⟩
  | cons poll polls ih =>
    obtain ⟨msg, now⟩ := poll
    have ht := turned B last now msg
    generalize hturn : EventBus.turn B last now msg = turn at ht
    cases ht with
    | sleep =>
      have hrest := @ih last h
      exact ⟨by rw [EventBus.subscribe, hturn]; exact hrest.events,
        by rw [EventBus.subscribe, hturn]; exact hrest.ending⟩
    | keepalive =>
      have hrest := @ih now h
      exact ⟨by rw [EventBus.subscribe, hturn]; exact hrest.events,
        by rw [EventBus.subscribe, hturn]; exact hrest.ending⟩
    | done hd =>
      refine ⟨?_, ?_⟩
      · rw [EventBus.subscribe, hturn, arrived_some, beforeDone_done hd]
        rfl
      · rw [EventBus.subscribe, hturn, arrived_some, List.any_cons, hd]
        rfl
    | skip hd _ he =>
      rw [arrived_some, beforeDone_cons hd] at h
      have hrest := @ih last fun msg hm => h msg (List.mem_cons_of_mem _ hm)
      refine ⟨?_, ?_⟩
      · rw [EventBus.subscribe, hturn, arrived_some, beforeDone_cons hd,
          List.filterMap_cons_none he]
        exact hrest.events
      · rw [EventBus.subscribe, hturn, arrived_some, List.any_cons, hd, Bool.false_or]
        exact hrest.ending
    | event hd _ he =>
      rw [arrived_some, beforeDone_cons hd] at h
      have hrest := @ih now fun msg hm => h msg (List.mem_cons_of_mem _ hm)
      refine ⟨?_, ?_⟩
      · rw [EventBus.subscribe, hturn, arrived_some, beforeDone_cons hd,
          List.filterMap_cons_some he, ← hrest.events]
        rfl
      · rw [EventBus.subscribe, hturn, arrived_some, List.any_cons, hd, Bool.false_or]
        exact hrest.ending
    | raises hd hu =>
      rw [arrived_some, beforeDone_cons hd] at h
      cases hu.symm.trans (h _ List.mem_cons_self)

end

theorem subscription_law {B : Bus} {lastYieldTime : Rat} {polls : List (Option Message × Rat)} :
    SubscriptionLaw B lastYieldTime polls ↔
      ∀ msg ∈ beforeDone (arrived polls), msg.unguarded B = false := by
  refine ⟨fun h msg hm => ?_, subscription_of_guarded⟩
  rw [← Bool.not_eq_true]
  intro hu
  obtain ⟨exc, he⟩ := raised_of_unguarded lastYieldTime ⟨msg, hm, hu⟩
  have hend := he.symm.trans h.ending
  split at hend <;> cases hend

/-- `json.loads` on the texts of a list without items and of a number. -/
def plainBus : Bus where
  keepaliveInterval := 15
  loads s := if s = "[]" then .ok (.arr []) else if s = "1" then .ok (.int 1) else
    .error (.decodeError "Expecting value")

theorem not_subscription_law : ¬∀ lastYieldTime polls,
    SubscriptionLaw plainBus lastYieldTime polls := by
  intro h
  have hend : Listening.raised _ = Listening.waiting :=
    (h 0 [(some ⟨"message", "[]"⟩, 0)]).ending
  cases hend

/-- The texts that a stream reads as JSON, or as a `JSONDecodeError`. -/
def Wire.bus (W : Wire) : Bus where
  keepaliveInterval := W.sseKeepaliveInterval
  loads s := (W.loads s).mapError .decodeError

/-- What a stream does with a turn of the loop of `subscribe`. -/
def takeTurn (W : Wire) (taskId : String) (lastYieldTime now : Rat) : BusTurn → Sse Text Streamed
  | .sleep => do
    askSse .sleep
    return .again lastYieldTime
  | .keepalive => yieldKeepalive now
  | .skip => return .again lastYieldTime
  | .done => return .ended
  | .event event => yieldEvent W taskId now event
  | .raises exc => raise exc

/-- A stream goes through the loop of `subscribe` turn by turn. -/
theorem pollMessage_eq {W : Wire} {taskId : String} {lastYieldTime : Rat} :
    (pollMessage W taskId lastYieldTime : Sse Text Streamed) = (do
      let msg : Option Message ← askSse .getMessage
      let now : Rat ← askSse .time
      takeTurn W taskId lastYieldTime now (EventBus.turn W.bus lastYieldTime now msg)) := by
  unfold pollMessage
  congr 1
  funext msg
  congr 1
  funext now
  cases msg with
  | none =>
    dsimp only [EventBus.turn]
    rw [show W.bus.keepaliveInterval = W.sseKeepaliveInterval from rfl]
    split <;> rfl
  | some msg =>
    dsimp only [EventBus.turn, EventBus.heed]
    split
    · rfl
    · split
      · rfl
      · rw [Wire.bus]
        dsimp only
        cases W.loads msg.data with
        | error e => rfl
        | ok raw =>
          dsimp only [Except.mapError]
          cases EventBus.proxy raw with
          | error exc => rfl
          | ok event => rfl

end Orchestrator
