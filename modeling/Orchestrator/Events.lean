import Orchestrator.Python.Value
import Orchestrator.Worker

namespace Orchestrator
open Python
set_option autoImplicit true

/-- A value of `event_type`: its own attribute `value`, which enums have, and its `str`. -/
structure Attribute where
  value : Option Json
  str : String

/-- An event of the engine, with the attributes it has. -/
structure CioEvent where
  eventType : Option Attribute
  message : Option Json
  metadata : Option Json
  timestamp : Option Json

/-- The settings of the streams, and `json` and `str` of Python. -/
structure Wire where
  sseKeepaliveInterval : Rat
  dumps : Json → String
  loads : String → Except String Json
  str : Json → String

/-- What `_EventProxy` carries. -/
structure EventProxy where
  eventType : Json
  message : Json
  metadata : Json
  timestamp : Json

namespace EventBus

/-- The dictionary that `publish` sends as JSON. -/
def payload (event : CioEvent) : Json := .obj [
  ("event_type", event.eventType.elim (.str "info") fun a => a.value.getD (.str a.str)),
  ("message", event.message.getD (.str "")),
  ("metadata", (event.metadata.getD (.obj [])).or (.obj [])),
  ("timestamp", event.timestamp.getD (.str ""))]

/-- The event that `subscribe` makes of a message. Only a dictionary has a `get`. -/
def proxy : Json → Except Exc EventProxy
  | .obj fields => .ok {
      eventType := dictGet fields "event_type" (.str "info")
      message := dictGet fields "message" (.str "")
      metadata := dictGet fields "metadata" (.obj [])
      timestamp := dictGet fields "timestamp" (.str "") }
  | _ => .error ⟨.other, "object has no attribute 'get'"⟩

end EventBus

structure SSEPayload where
  message : String
  metadata : List (String × Json) := []
  timestamp : String := ""

namespace SSEPayload

/-- The model accepts strings and a dictionary. -/
def fromCioEvent (event : EventProxy) : Except Exc SSEPayload :=
  match event.message, event.metadata.or (.obj []), event.timestamp with
  | .str message, .obj metadata, .str timestamp => .ok ⟨message, metadata, timestamp⟩
  | _, _, _ => .error ⟨.value, "validation error for SSEPayload"⟩

def modelDump (payload : SSEPayload) : Json := .obj [
  ("message", .str payload.message),
  ("metadata", .obj payload.metadata),
  ("timestamp", .str payload.timestamp)]

end SSEPayload

structure SseFrame where
  event : String
  data : String
  deriving DecidableEq

/-- What a stream yields. -/
inductive Frame where
  | keepalive
  | event (frame : SseFrame)
  deriving DecidableEq

def terminalSseEvents : List String := ["workflow_complete", "workflow_failed"]

def isTerminalEvent (eventType : String) : Bool := terminalSseEvents.contains eventType

def buildSseFrame (W : Wire) (event : EventProxy) : Except Exc SseFrame := do
  let eventType := match event.eventType with
    | .null => "info"
    | .str s => s
    | j => W.str j
  let payload ← SSEPayload.fromCioEvent event
  return ⟨eventType, W.dumps payload.modelDump⟩

/-- An event with a name, a text, a dictionary and a time. -/
structure PlainEvent where
  eventType : Attribute
  name : String
  message : String
  metadata : List (String × Json)
  timestamp : String
  named : eventType.value.getD (.str eventType.str) = .str name

namespace PlainEvent

def toCioEvent (event : PlainEvent) : CioEvent where
  eventType := some event.eventType
  message := some (.str event.message)
  metadata := some (.obj event.metadata)
  timestamp := some (.str event.timestamp)

/-- The frame of an event. -/
def frame (W : Wire) (event : PlainEvent) : SseFrame where
  event := event.name
  data := W.dumps (SSEPayload.modelDump ⟨event.message, event.metadata, event.timestamp⟩)

/-- The message of an event. -/
def text (W : Wire) (event : PlainEvent) : String :=
  W.dumps (EventBus.payload event.toCioEvent)

/-- What the bus makes of an event on its way. -/
def proxy (event : PlainEvent) : EventProxy where
  eventType := .str event.name
  message := .str event.message
  metadata := .obj event.metadata
  timestamp := .str event.timestamp

theorem proxy_payload (event : PlainEvent) :
    EventBus.proxy (EventBus.payload event.toCioEvent) = .ok event.proxy := by
  have hp : EventBus.payload event.toCioEvent = .obj [("event_type", .str event.name),
      ("message", .str event.message), ("metadata", .obj event.metadata),
      ("timestamp", .str event.timestamp)] := by
    simp only [EventBus.payload, toCioEvent, Option.elim_some, event.named, Option.getD_some,
      Json.or_obj_nil]
  rw [hp]
  rfl

theorem buildSseFrame_proxy (W : Wire) (event : PlainEvent) :
    buildSseFrame W event.proxy = .ok (event.frame W) := by
  simp only [buildSseFrame, SSEPayload.fromCioEvent, proxy, Json.or_obj_nil]
  rfl

end PlainEvent

end Orchestrator
