import Orchestrator.Events

namespace Orchestrator
open Python
set_option autoImplicit true

/-- The value of an attribute: one that JSON can express, or a foreign one, which `json.dumps`
rejects. The model of the payload may take a foreign value for a string or for a dictionary. -/
inductive Attr where
  | json (j : Json)
  | foreign (truthy : Bool) (asStr : Option String) (asDict : Option (List (String × Json)))

/-- The attribute `event_type`: it is not there, or it is `None`, a string, or a member of an enum
whose values are strings. -/
inductive EventType where
  | absent
  | none
  | text (s : String)
  | member (value str : String)
  deriving DecidableEq

/-- An event of any kind. -/
structure EventObject where
  eventType : EventType
  message : Option Attr
  metadata : Option Attr
  timestamp : Option Attr

namespace Attr

/-- What `json.dumps` accepts. -/
def toJson : Attr → Except Exc Json
  | .json j => .ok j
  | .foreign .. => .error ⟨.other, "Object is not JSON serializable"⟩

/-- `value or {}`. -/
def orEmpty : Attr → Attr
  | .json j => .json (j.or (.obj []))
  | .foreign false _ _ => .json (.obj [])
  | .foreign true s d => .foreign true s d

def str? : Attr → Option String
  | .json (.str s) => some s
  | .json _ => .none
  | .foreign _ s _ => s

def dict? : Attr → Option (List (String × Json))
  | .json (.obj fields) => some fields
  | .json _ => .none
  | .foreign _ _ d => d

end Attr

/-- `getattr(event, "event_type", None)` with its own attribute `value`, and its `str`. -/
def EventType.attribute : EventType → Option Attribute
  | .absent => .none
  | .none => some ⟨.none, "None"⟩
  | .text s => some ⟨.none, s⟩
  | .member value str => some ⟨some (.str value), str⟩

/-- The event line of a frame. -/
def EventType.line : EventType → String
  | .absent | .none => "info"
  | .text s => s
  | .member value _ => value

namespace EventObject

def messageAttr (event : EventObject) : Attr := event.message.getD (.json (.str ""))

def metadataAttr (event : EventObject) : Attr := (event.metadata.getD (.json (.obj []))).orEmpty

def timestampAttr (event : EventObject) : Attr := event.timestamp.getD (.json (.str ""))

/-- `EventBus.publish`, up to the text that it sends. -/
def publish (W : Wire) (event : EventObject) : Except Exc String := do
  let message ← event.messageAttr.toJson
  let metadata ← event.metadataAttr.toJson
  let timestamp ← event.timestampAttr.toJson
  return W.dumps (EventBus.payload
    ⟨event.eventType.attribute, some message, some metadata, some timestamp⟩)

/-- `SSEPayload.from_cio_event`. -/
def ssePayload (event : EventObject) : Except Exc SSEPayload :=
  match event.messageAttr.str?, event.metadataAttr.dict?, event.timestampAttr.str? with
  | some message, some metadata, some timestamp => .ok ⟨message, metadata, timestamp⟩
  | _, _, _ => .error ⟨.value, "validation error for SSEPayload"⟩

/-- `build_sse_frame` on the event itself. -/
def buildSseFrame (W : Wire) (event : EventObject) : Except Exc SseFrame := do
  let payload ← event.ssePayload
  return ⟨event.eventType.line, W.dumps payload.modelDump⟩

end EventObject

/-- What becomes of a message that is not the sentinel: it is skipped, or it raises, or it is
shown. -/
def receive (W : Wire) (data : String) : Option (Except Exc SseFrame) :=
  match W.loads data with
  | .error _ => none
  | .ok raw => some ((EventBus.proxy raw).bind (buildSseFrame W))

/-- On these values, `json.loads` reads what `json.dumps` writes, and different values are written
differently. -/
structure Wire.Faithful (W : Wire) (T : Json → Prop) : Prop where
  loads_dumps : ∀ j, T j → W.loads (W.dumps j) = .ok j.read
  dumps_inj : ∀ j j', T j → T j' → W.dumps j = W.dumps j' → j = j'

/-- The event line after the way through the bus. -/
def EventType.forwarded : EventType → String
  | .absent => "info"
  | .none => "None"
  | .text s => s
  | .member value _ => value

theorem EventType.line_eq_iff (e : EventType) : e.line = e.forwarded ↔ e ≠ .none := by
  cases e with
  | none => exact ⟨fun h => absurd h (by decide), fun h => absurd rfl h⟩
  | absent | text _ | member _ _ => exact ⟨fun _ => (fun h => by cases h), fun _ => rfl⟩

namespace EventObject

/-- The values that are written on the two ways of an event. -/
inductive Writes (event : EventObject) : Json → Prop where
  | payload (hm : event.messageAttr.toJson = .ok m) (hd : event.metadataAttr.toJson = .ok d)
      (ht : event.timestampAttr.toJson = .ok t) :
      Writes event (EventBus.payload ⟨event.eventType.attribute, some m, some d, some t⟩)
  | frame (h : event.ssePayload = .ok payload) : Writes event payload.modelDump
  | readFrame (h : event.ssePayload = .ok payload) : Writes event payload.modelDump.read

/-- No dictionary in the metadata has two keys that JSON writes alike. -/
def KeysApart (event : EventObject) : Prop := ∀ j, event.metadata = some (.json j) → j.Distinct

end EventObject

theorem str_of_toJson {a : Attr} {j : Json} {s : String} (hj : a.toJson = .ok j)
    (hs : a.str? = some s) : j = .str s := by
  cases a with
  | foreign _ _ _ => cases hj
  | json j' =>
    obtain rfl := Except.ok.inj hj
    cases j' with
    | str s' => exact congrArg _ (Option.some.inj hs)
    | _ => cases hs

theorem obj_of_toJson {a : Attr} {j : Json} {fields : List (String × Json)}
    (hj : a.toJson = .ok j) (hd : a.dict? = some fields) : j = .obj fields := by
  cases a with
  | foreign _ _ _ => cases hj
  | json j' =>
    obtain rfl := Except.ok.inj hj
    cases j' with
    | obj fields' => exact congrArg _ (Option.some.inj hd)
    | _ => cases hd

theorem SSEPayload.read_modelDump (payload : SSEPayload) : payload.modelDump.read =
    SSEPayload.modelDump ⟨payload.message, Json.readFields payload.metadata [],
      payload.timestamp⟩ := rfl

theorem SSEPayload.modelDump_inj {a b : SSEPayload} (h : a.modelDump = b.modelDump) : a = b := by
  obtain ⟨m, fields, t⟩ := a
  obtain ⟨m', fields', t'⟩ := b
  simp only [modelDump, Json.obj.injEq, List.cons.injEq, Prod.mk.injEq, true_and, and_true,
    Json.str.injEq] at h
  obtain ⟨rfl, rfl, rfl⟩ := h
  rfl

namespace EventObject
variable {event : EventObject} {W : Wire}

theorem keysApart_iff {fields : List (String × Json)}
    (h : event.metadataAttr.toJson = .ok (.obj fields)) :
    event.KeysApart ↔ (Json.obj fields).Distinct := by
  unfold metadataAttr at h
  unfold KeysApart
  cases hm : event.metadata with
  | none =>
    rw [hm] at h
    cases h
    exact ⟨fun _ => ⟨List.nodup_nil, trivial⟩, fun _ _ hj => by cases hj⟩
  | some a =>
    rw [hm] at h
    cases a with
    | foreign b _ _ =>
      refine ⟨fun _ => ?_, fun _ _ hj => by cases hj⟩
      cases b with
      | false =>
        cases h
        exact ⟨List.nodup_nil, trivial⟩
      | true => cases h
    | json j =>
      have hd := Json.distinct_or_iff (Except.ok.inj h)
      exact ⟨fun hj => hd.1 (hj j rfl), fun hf j' hj' => by
        obtain rfl := Attr.json.inj (Option.some.inj hj')
        exact hd.2 hf⟩

/-- An event that both ways accept has a string, a dictionary and a string. -/
theorem parts {text : String} {payload : SSEPayload} (ht : event.publish W = .ok text)
    (hp : event.ssePayload = .ok payload) :
    event.messageAttr.toJson = .ok (.str payload.message) ∧
      event.metadataAttr.toJson = .ok (.obj payload.metadata) ∧
      event.timestampAttr.toJson = .ok (.str payload.timestamp) := by
  unfold publish at ht
  unfold ssePayload at hp
  split at hp
  · rename_i m d t hm hd hts
    obtain rfl := Except.ok.inj hp
    cases hmj : event.messageAttr.toJson with
    | error e =>
      rw [hmj] at ht
      cases ht
    | ok j =>
      cases hdj : event.metadataAttr.toJson with
      | error e =>
        rw [hmj, hdj] at ht
        cases ht
      | ok j' =>
        cases htj : event.timestampAttr.toJson with
        | error e =>
          rw [hmj, hdj, htj] at ht
          cases ht
        | ok j'' =>
          exact ⟨congrArg _ (str_of_toJson hmj hm), congrArg _ (obj_of_toJson hdj hd),
            congrArg _ (str_of_toJson htj hts)⟩
  · cases hp

end EventObject

/-- The dictionary that `publish` makes of an event with these attributes. -/
def EventType.dictionary (e : EventType) (payload : SSEPayload) : Json := EventBus.payload
  ⟨e.attribute, some (.str payload.message), some (.obj payload.metadata),
    some (.str payload.timestamp)⟩

theorem EventType.read_dictionary (e : EventType) (payload : SSEPayload) :
    (e.dictionary payload).read = .obj [("event_type", .str e.forwarded),
      ("message", .str payload.message), ("metadata", .obj (Json.readFields payload.metadata [])),
      ("timestamp", .str payload.timestamp)] := by
  unfold dictionary EventBus.payload
  simp only [Option.getD_some, Json.or_obj_nil]
  cases e <;> rfl

theorem receive_dictionary {W : Wire} {e : EventType} {payload : SSEPayload}
    (hl : W.loads (W.dumps (e.dictionary payload)) = .ok (e.dictionary payload).read) :
    receive W (W.dumps (e.dictionary payload)) =
      some (.ok ⟨e.forwarded, W.dumps payload.modelDump.read⟩) := by
  have hproxy : EventBus.proxy (e.dictionary payload).read =
      .ok ⟨.str e.forwarded, .str payload.message,
        .obj (Json.readFields payload.metadata []), .str payload.timestamp⟩ := by
    rw [e.read_dictionary]
    rfl
  have hframe : buildSseFrame W ⟨.str e.forwarded, .str payload.message,
      .obj (Json.readFields payload.metadata []), .str payload.timestamp⟩ =
      .ok ⟨e.forwarded, W.dumps payload.modelDump.read⟩ := by
    rw [payload.read_modelDump]
    simp only [buildSseFrame, SSEPayload.fromCioEvent, Json.or_obj_nil]
    rfl
  rw [receive, hl]
  dsimp only
  rw [hproxy]
  exact congrArg some hframe

theorem SSEPayload.read_eq_iff (payload : SSEPayload) :
    payload.modelDump.read = payload.modelDump ↔ (Json.obj payload.metadata).Distinct := by
  rw [← Json.read_eq_iff, payload.read_modelDump]
  constructor
  · intro h
    exact congrArg Json.obj (congrArg SSEPayload.metadata (SSEPayload.modelDump_inj h))
  · intro h
    rw [Json.read] at h
    rw [Json.obj.inj h]

/-- An event that has come through the bus is shown like the event itself, unless it has a type that
is `None`, or metadata with two keys that JSON writes alike. -/
theorem forwarding_law {W : Wire} {event : EventObject} {text : String} {f g : SseFrame}
    (hW : W.Faithful event.Writes) (ht : event.publish W = .ok text)
    (hg : receive W text = some (.ok g)) (hf : event.buildSseFrame W = .ok f) :
    g = f ↔ event.eventType ≠ .none ∧ event.KeysApart := by
  cases hp : event.ssePayload with
  | error e =>
    rw [EventObject.buildSseFrame, hp] at hf
    cases hf
  | ok payload =>
    obtain ⟨hm, hd, hts⟩ := EventObject.parts ht hp
    rw [EventObject.publish, hm, hd, hts] at ht
    obtain rfl := Except.ok.inj ht
    have hl := hW.loads_dumps _ (.payload hm hd hts)
    have hgf := (receive_dictionary hl).symm.trans hg
    obtain rfl := Except.ok.inj (Option.some.inj hgf)
    rw [EventObject.buildSseFrame, hp] at hf
    obtain rfl := Except.ok.inj hf
    rw [EventObject.keysApart_iff hd, ← payload.read_eq_iff, ← event.eventType.line_eq_iff,
      SseFrame.mk.injEq, eq_comm (a := event.eventType.forwarded)]
    exact and_congr_right fun _ =>
      ⟨hW.dumps_inj _ _ (.readFrame hp) (.frame hp), congrArg W.dumps⟩

/-- `json.dumps` of strings, and of dictionaries of strings and empty dictionaries. -/
def plainDumps : Json → String
  | .str s => "\"" ++ s ++ "\""
  | .obj fields => "\x7b" ++ ", ".intercalate (fields.map fun f => "\"" ++ f.1 ++ "\": " ++
      match f.2 with
      | .str s => "\"" ++ s ++ "\""
      | _ => "\x7b\x7d") ++ "\x7d"
  | _ => "null"

/-- An event of this type without metadata. -/
def bareEvent (e : EventType) : EventObject where
  eventType := e
  message := some (.json (.str "m"))
  metadata := none
  timestamp := some (.json (.str "t"))

def barePayload : SSEPayload where
  message := "m"
  timestamp := "t"

def bareLoads (e : EventType) (s : String) : Except String Json :=
  if s = plainDumps (e.dictionary barePayload) then .ok (e.dictionary barePayload).read
  else if s = plainDumps barePayload.modelDump then .ok barePayload.modelDump.read
  else .error "Expecting value: line 1 column 1 (char 0)"

def bareWire (e : EventType) : Wire where
  sseKeepaliveInterval := 15
  dumps := plainDumps
  loads := bareLoads e
  str _ := "None"

theorem writes_bare {e : EventType} {j : Json} (h : (bareEvent e).Writes j) :
    j = e.dictionary barePayload ∨ j = barePayload.modelDump := by
  have hp {payload : SSEPayload} (hp : (bareEvent e).ssePayload = .ok payload) :
      payload = barePayload := (Except.ok.inj hp).symm
  cases h with
  | payload hm hd ht =>
    obtain rfl := Except.ok.inj hm
    obtain rfl := Except.ok.inj hd
    obtain rfl := Except.ok.inj ht
    exact .inl rfl
  | frame h => exact .inr (by rw [hp h])
  | readFrame h =>
    rw [hp h]
    exact .inr rfl

theorem bareWire_faithful {e : EventType}
    (hne : plainDumps barePayload.modelDump ≠ plainDumps (e.dictionary barePayload)) :
    (bareWire e).Faithful (bareEvent e).Writes where
  loads_dumps j hj := by
    rw [show (bareWire e).loads = bareLoads e from rfl,
      show (bareWire e).dumps = plainDumps from rfl, bareLoads]
    rcases writes_bare hj with rfl | rfl
    · rw [if_pos rfl]
    · rw [if_neg hne, if_pos rfl]
  dumps_inj j j' hj hj' he := by
    rcases writes_bare hj with rfl | rfl <;> rcases writes_bare hj' with rfl | rfl
    · rfl
    · exact absurd he.symm hne
    · exact absurd he hne
    · rfl

theorem receive_bare {e : EventType} (hW : (bareWire e).Faithful (bareEvent e).Writes) :
    receive (bareWire e) (plainDumps (e.dictionary barePayload)) =
      some (.ok ⟨e.forwarded, plainDumps barePayload.modelDump.read⟩) :=
  receive_dictionary (hW.loads_dumps (e.dictionary barePayload) (.payload rfl rfl rfl))

def memberType : EventType := .member "info" "EventType.INFO"

theorem forwarding_law_member : ∃ text f g,
    (bareEvent memberType).publish (bareWire memberType) = .ok text ∧
    receive (bareWire memberType) text = some (.ok g) ∧
    (bareEvent memberType).buildSseFrame (bareWire memberType) = .ok f ∧
    (g = f ↔ memberType ≠ .none ∧ (bareEvent memberType).KeysApart) := by
  have hW : (bareWire memberType).Faithful (bareEvent memberType).Writes :=
    bareWire_faithful (by decide)
  exact ⟨_, _, _, rfl, receive_bare hW, rfl, forwarding_law hW rfl (receive_bare hW) rfl⟩

theorem not_forwarding_law : ¬∀ (W : Wire) (event : EventObject) (text : String) (f g : SseFrame),
    W.Faithful event.Writes → event.publish W = .ok text → receive W text = some (.ok g) →
    event.buildSseFrame W = .ok f → g = f := by
  intro h
  have hW : (bareWire .none).Faithful (bareEvent .none).Writes := bareWire_faithful (by decide)
  have he := h (bareWire .none) (bareEvent .none) _ _ _ hW rfl (receive_bare hW) rfl
  exact absurd (congrArg SseFrame.event he) (by decide)

end Orchestrator
