import Orchestrator.Forwarding
import Orchestrator.Phases
import Orchestrator.Rehearsal
import Orchestrator.Schedule

namespace Orchestrator
open Concurrency Async Python
set_option autoImplicit true

/-- The records of the tasks, and the messages published so far. -/
structure Publishers (Text : Type) where
  records : String → Option Text
  log : List (String × String)

/-- A call of the bus, or a change of a record, by any of the publishers. -/
inductive Call (Text Event : Type) where
  | publish (id : String) (ev : Event)
  | close (id : String)
  | store (id : String) (raw : Option Text)

/-- A message of a task: one of its events, or the sentinel. -/
inductive Sent (Event : Type) where
  | event (ev : Event)
  | done

section
variable (W : Wire) (object : Event → PlainEvent)

def Publishers.apply (b : Publishers Text) : Call Text Event → Publishers Text
  | .publish id ev => { b with log := b.log ++ [(channel id, (object ev).text W)] }
  | .close id => { b with log := b.log ++ [(channel id, doneMessage)] }
  | .store id raw => { b with records := Function.update b.records id raw }

/-- Publishers that make any calls in any order. -/
def publishers (Text : Type) : Source Text (Publishers Text) (Call Text Event) where
  step b c b' := b' = b.apply W object c
  record := Publishers.records
  published := Publishers.log

def Sent.text : Sent Event → String
  | .event ev => (object ev).text W
  | .done => doneMessage

def Sent.ends : Sent Event → Bool
  | .event ev => isTerminalEvent (object ev).name
  | .done => true

/-- The frames of the events up to the first terminal one, or up to the first sentinel. -/
def cutFrames : List (Sent Event) → List SseFrame
  | [] => []
  | .event ev :: rest =>
    (object ev).frame W :: if isTerminalEvent (object ev).name then [] else cutFrames rest
  | .done :: _ => []

end

/-- The messages of task `id` that a step publishes. A publish of a stream that is cut short may
not take place. -/
def Sends (id : String) : SseLabel Text (Call Text Event) → List (Sent Event) → Prop
  | .env (.publish id' ev), ms => ms = if id' = id then [.event ev] else []
  | .env (.close id'), ms => ms = if id' = id then [.done] else []
  | .cmd _ (.publish ch _) _, ms => ms = if ch = channel id then [.done] else []
  | .abort _ (.publish ch _) _, ms => ms = [] ∨ ch = channel id ∧ ms = [.done]
  | _, ms => ms = []

/-- Process `i` subscribes to a channel. -/
def Subscribes (i : Nat) (ch : String) : SseLabel Text L → Prop
  | .cmd j (.subscribe ch') _ => j = i ∧ ch' = ch
  | _ => False

/-- What has been published of task `id` since process `i` subscribed to its channel. -/
inductive Heard (id : String) (i : Nat) :
    List (SseLabel Text (Call Text Event)) → List (Sent Event) → Prop where
  | subscribed (h : Subscribes i (channel id) l) : Heard id i (l :: tr) []
  | later (h : Heard id i tr ms) (hl : ¬Subscribes i (channel id) l) (hs : Sends id l ms') :
      Heard id i (l :: tr) (ms ++ ms')

/-- The event frames that process `i` has sent to its client since it subscribed. -/
def shown (i : Nat) : List (SseLabel Text L) → List SseFrame
  | [] => []
  | .cmd j (.send (.event frame)) _ :: tr => if j = i then shown i tr ++ [frame] else shown i tr
  | .cmd j (.subscribe _) _ :: tr => if j = i then [] else shown i tr
  | _ :: tr => shown i tr

/-- The reply says that the client has left. -/
def SseCmd.left : (c : SseCmd) → c.Answer Text → Bool
  | .isDisconnected, .ok gone => gone
  | _, _ => false

/-- The client of process `i` is always found there, and no command of `i` is cut short. -/
def staysConnected (i : Nat) :
    StepFilter SseCmd (SseCmd.Answer Text) (Except Exc Streamed) σ SseKind L :=
  fun _ _ l _ => match l with
    | .cmd j c r => j = i → c.left r = false
    | .abort j _ _ => j ≠ i
    | _ => True

instance (i : Nat) (tr : List (SseLabel Text L)) (w : σ) (l : SseLabel Text L) (w' : σ) :
    Decidable (staysConnected i tr w l w') :=
  match l with
  | .cmd j c r => inferInstanceAs (Decidable (j = i → c.left r = false))
  | .abort j _ _ => inferInstanceAs (Decidable (j ≠ i))
  | .spawn .. | .exit .. | .env _ | .halt => .isTrue trivial

section
variable {W : Wire} {object : Event → PlainEvent} {i : Nat} {id : String}
  {tr : List (SseLabel Text (Call Text Event))} {h h' : Hub (Publishers Text)}
  {l : SseLabel Text (Call Text Event)} {delivered hand pending ms ms' : List (Sent Event)}

theorem cutFrames_append_of_open (ho : ∀ m ∈ ms, m.ends object = false) :
    cutFrames W object (ms ++ ms') = cutFrames W object ms ++ cutFrames W object ms' := by
  induction ms with
  | nil => rfl
  | cons m ms ih =>
    have hm : m.ends object = false := ho m (List.mem_cons_self ..)
    cases m with
    | done => cases hm
    | event ev =>
      have hev : ¬isTerminalEvent (object ev).name = true := Bool.eq_false_iff.1 hm
      rw [List.cons_append, cutFrames, cutFrames, if_neg hev, if_neg hev,
        ih fun m h => ho m (List.mem_cons_of_mem _ h), List.cons_append]

theorem cutFrames_append_of_ends (he : ∃ m ∈ ms, m.ends object = true) :
    cutFrames W object (ms ++ ms') = cutFrames W object ms := by
  induction ms with
  | nil =>
    obtain ⟨m, hm, _⟩ := he
    cases hm
  | cons m ms ih =>
    cases m with
    | done => rfl
    | event ev =>
      rw [List.cons_append, cutFrames, cutFrames]
      split
      · rfl
      · rename_i hev
        obtain ⟨m, hm, hme⟩ := he
        rcases List.mem_cons.1 hm with rfl | hm
        · exact absurd hme hev
        · rw [ih ⟨m, hm, hme⟩]

end

/-- The messages of a subscription that have been dealt with, the one in hand, and those that are
still to come. -/
structure Relayed (W : Wire) (object : Event → PlainEvent) (i : Nat)
    (tr : List (SseLabel Text (Call Text Event))) (h : Hub (Publishers Text)) (id : String)
    (delivered hand pending : List (Sent Event)) : Prop where
  heard : Heard id i tr (delivered ++ hand ++ pending)
  inbox : h.inbox i = some (channel id, pending.map (Sent.text W object))
  frames : shown i tr = cutFrames W object delivered

/-- The subscription is over, and the frames are those of what has been heard. -/
def Completed (W : Wire) (object : Event → PlainEvent) (i : Nat)
    (tr : List (SseLabel Text (Call Text Event))) (id : String) : Prop :=
  ∃ ms, Heard id i tr ms ∧ shown i tr = cutFrames W object ms ∧ ∃ m ∈ ms, m.ends object = true

/-- What a phase says of the messages that have been dealt with and of the one in hand. -/
def Phase.Bears (W : Wire) (object : Event → PlainEvent) (delivered hand : List (Sent Event)) :
    Phase → Prop
  | .listening _ => hand = [] ∧ ∀ m ∈ delivered, m.ends object = false
  | .holding _ msg => (∃ m, hand = [m] ∧ msg = ⟨"message", m.text W object⟩) ∧
      ∀ m ∈ delivered, m.ends object = false
  | .showing _ event => (∃ ev, hand = [.event ev] ∧ event = (object ev).proxy) ∧
      ∀ m ∈ delivered, m.ends object = false
  | .framing _ frame => (∃ ev, hand = [.event ev] ∧ frame = (object ev).frame W) ∧
      ∀ m ∈ delivered, m.ends object = false
  | .closing .. | .leaving _ .sentinel | .leaving _ (.terminal _) =>
    hand = [] ∧ ∃ m ∈ delivered, m.ends object = true
  | _ => False

/-- Where process `i` is in relaying the messages of its task. -/
def Relays (W : Wire) (object : Event → PlainEvent) (i : Nat)
    (tr : List (SseLabel Text (Call Text Event))) (h : Hub (Publishers Text)) (d : Phase) : Prop :=
  match d.subscribed with
  | some id => ∃ delivered hand pending, Relayed W object i tr h id delivered hand pending ∧
      d.Bears W object delivered hand
  | none => h.inbox i = none ∧ ∀ id ending, d = .ended id ending →
      ending.outcome = .ok .ended ∧ Completed W object i tr id

/-- A step that publishes these messages, as far as one channel goes. -/
def Transfers (W : Wire) (object : Event → PlainEvent) (l : SseLabel Text (Call Text Event))
    (messages : List (String × String)) : Prop :=
  ∀ id, ∃ ms, Sends id l ms ∧
    (messages.filter (·.1 = channel id)).map (·.2) = ms.map (Sent.text W object)

section
variable {W : Wire} {object : Event → PlainEvent} {i j : Nat} {id : String} {c : SseCmd}
  {r : c.Answer Text} {tr : List (SseLabel Text (Call Text Event))} {h h' : Hub (Publishers Text)}
  {l : SseLabel Text (Call Text Event)} {delivered hand pending ms : List (Sent Event)}
  {d : Phase} {messages : List (String × String)}

theorem Relayed.more (hr : Relayed W object i tr h id delivered hand pending)
    (hl : ∀ ch, ¬Subscribes i ch l) (hs : Sends id l ms)
    (hin : h'.inbox i = some (channel id, (pending ++ ms).map (Sent.text W object)))
    (hsh : shown i (l :: tr) = shown i tr) :
    Relayed W object i (l :: tr) h' id delivered hand (pending ++ ms) where
  heard := by
    rw [← List.append_assoc]
    exact hr.heard.later (hl _) hs
  inbox := hin
  frames := hsh.trans hr.frames

theorem Completed.more (hc : Completed W object i tr id) (hl : ∀ ch, ¬Subscribes i ch l)
    (hs : Sends id l ms) (hsh : shown i (l :: tr) = shown i tr) :
    Completed W object i (l :: tr) id := by
  obtain ⟨ms', hh, hcut, m, hm, he⟩ := hc
  refine ⟨ms' ++ ms, hh.later (hl _) hs, ?_, m, List.mem_append_left _ hm, he⟩
  rw [cutFrames_append_of_ends ⟨m, hm, he⟩, hsh, hcut]

theorem Relayed.completed (hr : Relayed W object i tr h id delivered [] pending)
    (he : ∃ m ∈ delivered, m.ends object = true) : Completed W object i tr id := by
  obtain ⟨m, hm, he⟩ := he
  refine ⟨delivered ++ [] ++ pending, hr.heard, ?_, m, ?_, he⟩
  · rw [List.append_nil, cutFrames_append_of_ends ⟨m, hm, he⟩, hr.frames]
  · rw [List.append_nil]
    exact List.mem_append_left _ hm

/-- A step that only publishes leaves a stream where it is. -/
theorem Relays.other (hd : Relays W object i tr h d) (hl : ∀ ch, ¬Subscribes i ch l)
    (hsh : shown i (l :: tr) = shown i tr) (hm : Transfers W object l messages)
    (hin : h'.inbox i = (h.deliver messages).inbox i) : Relays W object i (l :: tr) h' d := by
  unfold Relays at hd ⊢
  cases hs : d.subscribed with
  | some id =>
    rw [hs] at hd
    obtain ⟨delivered, hand, pending, hr, hb⟩ := hd
    obtain ⟨ms, hms, he⟩ := hm id
    refine ⟨delivered, hand, pending ++ ms, hr.more hl hms ?_ hsh, hb⟩
    rw [hin, Hub.deliver_inbox, hr.inbox, Option.map_some, he, List.map_append]
  | none =>
    rw [hs] at hd
    refine ⟨?_, fun id ending he => ?_⟩
    · rw [hin, Hub.deliver_inbox, hd.1, Option.map_none]
    · obtain ⟨ho, hc⟩ := hd.2 id ending he
      obtain ⟨ms, hms, _⟩ := hm id
      exact ⟨ho, hc.more hl hms hsh⟩

theorem transfers_nil (hl : ∀ id, Sends id l []) : Transfers W object l [] :=
  fun id => ⟨[], hl id, rfl⟩

/-- A step that publishes nothing leaves a stream where it is. -/
theorem Relays.same (hd : Relays W object i tr h d) (hl : ∀ ch, ¬Subscribes i ch l)
    (hsh : shown i (l :: tr) = shown i tr) (hm : ∀ id, Sends id l []) :
    Relays W object i (l :: tr) h d :=
  hd.other hl hsh (transfers_nil hm) (by rw [Hub.deliver_nil])

theorem filter_message (id id' : String) (m : Sent Event) :
    ([(channel id', m.text W object)].filter (·.1 = channel id)).map (·.2) =
      (if id' = id then [m] else []).map (Sent.text W object) := by
  rw [List.filter_singleton]
  by_cases h : id' = id <;> simp [h, channel_inj]

theorem Relayed.same (hr : Relayed W object i tr h id delivered hand pending)
    (hl : ∀ ch, ¬Subscribes i ch l) (hs : Sends id l []) (hin : h'.inbox i = h.inbox i)
    (hsh : shown i (l :: tr) = shown i tr) :
    Relayed W object i (l :: tr) h' id delivered hand pending := by
  have hm := hr.more hl hs (by rw [hin, hr.inbox, List.append_nil]) hsh
  rwa [List.append_nil] at hm

/-- The message in hand has been dealt with. -/
theorem Relayed.settle {m : Sent Event} (hr : Relayed W object i tr h id delivered [m] pending)
    (hf : shown i tr = cutFrames W object (delivered ++ [m])) :
    Relayed W object i tr h id (delivered ++ [m]) [] pending where
  heard := by
    rw [List.append_nil]
    exact hr.heard
  inbox := hr.inbox
  frames := hf

theorem Relays.take {msg : Option Message} (hd : Relays W object i tr h (.listening id))
    (hx : sseExec (publishers W object Text) i .getMessage (.ok msg) h h') :
    Relays W object i (.cmd i .getMessage (.ok msg) :: tr) h'
      (msg.elim (.listening id) (.holding id)) := by
  obtain ⟨delivered, hand, pending, hr, rfl, ho⟩ := hd
  obtain ⟨he, rfl⟩ | ⟨ch, data, rest, hin, he, rfl⟩ := hx
  · obtain rfl := Except.ok.inj he
    exact ⟨delivered, [], pending, hr.same (fun _ hl => hl) rfl rfl rfl, rfl, ho⟩
  · obtain rfl := Except.ok.inj he
    rw [hr.inbox] at hin
    obtain ⟨rfl, hp⟩ := Prod.mk.inj (Option.some.inj hin)
    cases pending with
    | nil => cases hp
    | cons m pending =>
      obtain ⟨rfl, rfl⟩ := List.cons.inj hp
      refine ⟨delivered, [m], pending, ⟨?_, Function.update_self .., hr.frames⟩, ⟨m, rfl, rfl⟩, ho⟩
      rw [show delivered ++ [m] ++ pending = delivered ++ [] ++ m :: pending ++ [] by simp]
      exact hr.heard.later (fun hl => hl) rfl

/-- What is done with a message is right: only the sentinel is taken for the sentinel. -/
theorem heed_text (hloads : ∀ ev, W.loads ((object ev).text W) =
      .ok (EventBus.payload (object ev).toCioEvent))
    (hdone : ∃ e, W.loads doneMessage = .error e) (id : String) (m : Sent Event) :
    Phase.heed W id ⟨"message", m.text W object⟩ = match m with
      | .event ev => .showing id (object ev).proxy
      | .done => .leaving id .sentinel := by
  cases m with
  | done => rfl
  | event ev =>
    have hne : (object ev).text W ≠ doneMessage := by
      intro he
      obtain ⟨e, hd⟩ := hdone
      rw [← he, hloads] at hd
      cases hd
    rw [Phase.heed, if_neg (not_not.2 rfl),
      if_neg (show ¬(Sent.event ev).text W object = _ from hne)]
    dsimp only [Sent.text]
    rw [hloads]
    dsimp only
    rw [PlainEvent.proxy_payload]

theorem ends_of_mem {ms : List (Sent Event)} {m : Sent Event} (h : m.ends object = true) :
    ∃ m' ∈ ms ++ [m], m'.ends object = true :=
  ⟨m, List.mem_append_right _ (List.mem_singleton_self m), h⟩

theorem open_append {ms : List (Sent Event)} {m : Sent Event}
    (ho : ∀ m ∈ ms, m.ends object = false) (h : m.ends object = false) :
    ∀ m' ∈ ms ++ [m], m'.ends object = false := by
  intro m' hm
  rcases List.mem_append.1 hm with hm | hm
  · exact ho m' hm
  · rwa [List.mem_singleton.1 hm]

theorem Relays.own [TaskJson Text] (hloads : ∀ ev, W.loads ((object ev).text W) =
      .ok (EventBus.payload (object ev).toCioEvent))
    (hdone : ∃ e, W.loads doneMessage = .error e) (hd : Relays W object i tr h d)
    (hc : d.sends c) (hx : sseExec (publishers W object Text) i c r h h')
    (hok : staysConnected i tr h (.cmd i c r) h') :
    Relays W object i (.cmd i c r :: tr) h' (d.after W c r) := by
  cases d with
  | gone | refused _ _ | ended _ _ => exact hc.elim
  | asking id =>
    subst hc
    obtain ⟨rfl, rfl⟩ := hx
    obtain ha | ⟨ending, ha⟩ :=
      Phase.asked_cases id (.ok ((publishers W object Text).record h'.base id))
    · rw [Phase.after, ha]
      exact ⟨hd.1, fun _ _ he => by cases he⟩
    · rw [Phase.after, ha]
      exact ⟨hd.1, fun _ _ he => by cases he⟩
  | opening id =>
    subst hc
    obtain ⟨rfl, rfl⟩ := hx
    refine ⟨[], [], [], ⟨.subscribed ⟨rfl, rfl⟩, Function.update_self .., ?_⟩, rfl, ?_⟩
    · rw [shown, if_pos rfl]
      rfl
    · intro m hm
      cases hm
  | listening id =>
    have hsame {c : SseCmd} {r : c.Answer Text}
        (hs : Sends id (.cmd i c r : SseLabel Text (Call Text Event)) [])
        (hl : ∀ ch, ¬Subscribes i ch (.cmd i c r : SseLabel Text (Call Text Event)))
        (hsh : shown i (.cmd i c r :: tr) = shown i tr) :
        Relays W object i (.cmd i c r :: tr) h (.listening id) := by
      obtain ⟨delivered, hand, pending, hr, hb⟩ := hd
      exact ⟨delivered, hand, pending, hr.same hl hs rfl hsh, hb⟩
    cases c with
    | getMessage =>
      cases r with
      | error e => obtain ⟨he, _⟩ | ⟨_, _, _, _, he, _⟩ := hx <;> cases he
      | ok msg =>
        have ht := hd.take hx
        cases msg <;> exact ht
    | time =>
      obtain ⟨⟨t, rfl⟩, rfl⟩ := hx
      exact hsame rfl (fun _ hl => hl) rfl
    | sleep =>
      obtain ⟨rfl, rfl⟩ := hx
      exact hsame rfl (fun _ hl => hl) rfl
    | isDisconnected =>
      obtain ⟨⟨t, rfl⟩, rfl⟩ := hx
      cases t with
      | true => cases hok rfl
      | false => exact hsame rfl (fun _ hl => hl) rfl
    | send frame =>
      obtain ⟨rfl, rfl⟩ := hx
      cases frame with
      | keepalive => exact hsame rfl (fun _ hl => hl) rfl
      | event frame => cases hc
    | _ => cases hc
  | holding id msg =>
    subst hc
    obtain ⟨⟨t, rfl⟩, rfl⟩ := hx
    obtain ⟨delivered, hand, pending, hr, ⟨m, rfl, rfl⟩, ho⟩ := hd
    have hr' : Relayed W object i (.cmd i .time (.ok t) :: tr) h' id delivered [m] pending :=
      hr.same (fun _ hl => hl) rfl rfl rfl
    rw [Phase.after, heed_text hloads hdone]
    cases m with
    | event ev => exact ⟨delivered, _, pending, hr', ⟨ev, rfl, rfl⟩, ho⟩
    | done =>
      refine ⟨_, [], pending, hr'.settle ?_, rfl, ends_of_mem rfl⟩
      rw [hr'.frames, cutFrames_append_of_open ho, cutFrames, List.append_nil]
  | showing id event =>
    subst hc
    obtain ⟨⟨t, rfl⟩, rfl⟩ := hx
    obtain ⟨delivered, hand, pending, hr, ⟨ev, rfl, rfl⟩, ho⟩ := hd
    cases t with
    | true => cases hok rfl
    | false =>
      rw [Phase.after, Phase.frame, PlainEvent.buildSseFrame_proxy]
      exact ⟨delivered, _, pending, hr.same (fun _ hl => hl) rfl rfl rfl, ⟨ev, rfl, rfl⟩, ho⟩
  | framing id frame =>
    subst hc
    obtain ⟨rfl, rfl⟩ := hx
    obtain ⟨delivered, hand, pending, hr, ⟨ev, rfl, rfl⟩, ho⟩ := hd
    have hf : shown i (.cmd i (.send (.event ((object ev).frame W))) (.ok ()) :: tr) =
        cutFrames W object (delivered ++ [.event ev]) := by
      rw [shown, if_pos rfl, hr.frames, cutFrames_append_of_open ho, cutFrames, cutFrames, ite_self]
    have hr' : Relayed W object i (.cmd i (.send (.event ((object ev).frame W))) (.ok ()) :: tr) h'
        id (delivered ++ [.event ev]) [] pending := by
      refine ⟨?_, hr.inbox, hf⟩
      rw [show delivered ++ [.event ev] ++ [] ++ pending =
        delivered ++ [.event ev] ++ pending ++ [] by simp]
      exact hr.heard.later (fun hl => hl) rfl
    rw [Phase.after]
    split
    · rename_i ht
      exact ⟨_, [], pending, hr', rfl, ends_of_mem ht⟩
    · rename_i ht
      exact ⟨_, [], pending, hr', rfl, open_append ho (Bool.eq_false_iff.2 ht)⟩
  | closing id frame =>
    subst hc
    obtain ⟨rfl, rfl⟩ := hx
    obtain ⟨delivered, hand, pending, hr, rfl, he⟩ := hd
    refine ⟨delivered, [], pending ++ [.done], hr.more (fun _ hl => hl) ?_ ?_ rfl, rfl, he⟩
    · exact (if_pos rfl).symm
    · have hf : ([(channel id, doneMessage)].filter (·.1 = channel id)).map (·.2) =
          [Sent.done].map (Sent.text W object) :=
        (filter_message id id .done).trans (by rw [if_pos rfl])
      rw [Hub.deliver_inbox, hr.inbox, Option.map_some, List.map_append, hf]
  | leaving id ending =>
    subst hc
    obtain ⟨rfl, rfl⟩ := hx
    obtain ⟨delivered, hand, pending, hr, hb⟩ := hd
    refine ⟨Function.update_self .., fun _ _ ho => ?_⟩
    obtain ⟨rfl, rfl⟩ := Phase.ended.inj ho
    cases ending with
    | sentinel | terminal frame =>
      obtain ⟨rfl, he⟩ := hb
      exact ⟨rfl, (hr.completed he).more (fun _ hl => hl) rfl rfl⟩
    | notFound | empty | disconnected | raised exc => exact hb.elim

end

section
variable [TaskJson Text] {W : Wire} {object : Event → PlainEvent} {i : Nat}

end

section
variable {W : Wire} {object : Event → PlainEvent} {i : Nat} {h : Hub (Publishers Text)}
  {tr : List (SseLabel Text (Call Text Event))} {d : Phase} {id : String} {last : Rat}

theorem Relays.again {t : Rat} (hd : Relays W object i tr h d)
    (hp : d.Returns (.poll id last) (.ok (.again t))) : ∃ delivered pending,
    h.inbox i = some (channel id, pending.map (Sent.text W object)) ∧
    Heard id i tr (delivered ++ pending) ∧ shown i tr = cutFrames W object delivered ∧
    ∀ m ∈ delivered, m.ends object = false := by
  cases d with
  | listening id' =>
    obtain ⟨t', ⟨hq, _⟩ | ⟨last', hq, _⟩⟩ := hp
    · cases hq
    · obtain ⟨rfl, rfl⟩ := SseKind.poll.inj hq
      obtain ⟨delivered, hand, pending, hr, rfl, ho⟩ := hd
      have hh := hr.heard
      rw [List.append_nil] at hh
      exact ⟨delivered, pending, hr.inbox, hh, hr.frames, ho⟩
  | ended id' ending =>
    obtain ⟨_, ho⟩ := hp
    cases ending <;> cases ho
  | refused id' ending => cases hp.1
  | _ => exact hp.elim

theorem Relays.ended {b : Except Exc Streamed} (hd : Relays W object i tr h d)
    (hp : d.Returns (.poll id last) b) (hb : ∀ t, b ≠ .ok (.again t)) :
    b = .ok .ended ∧ Completed W object i tr id := by
  cases d with
  | listening id' =>
    obtain ⟨t', ⟨hq, _⟩ | ⟨last', hq, rfl⟩⟩ := hp
    · cases hq
    · exact absurd rfl (hb t')
  | ended id' ending =>
    obtain ⟨⟨last', hq⟩, rfl⟩ := hp
    obtain ⟨rfl, rfl⟩ := SseKind.poll.inj hq
    exact hd.2 _ _ rfl
  | refused id' ending => cases hp.1
  | _ => exact hp.elim

end

/-! Two events of an engine, with their JSON. -/

def plainEvent (name : String) : PlainEvent where
  eventType := ⟨some (.str name), "EventType." ++ name⟩
  name := name
  message := "m"
  metadata := []
  timestamp := "t"
  named := rfl

/-- An event that is terminal or not. -/
def verdictEvent (terminal : Bool) : PlainEvent :=
  plainEvent (if terminal then "workflow_complete" else "info")

def verdictPayload (terminal : Bool) : Json := EventBus.payload (verdictEvent terminal).toCioEvent

def verdictLoads (s : String) : Except String Json :=
  if s = plainDumps (verdictPayload false) then .ok (verdictPayload false)
  else if s = plainDumps (verdictPayload true) then .ok (verdictPayload true)
  else .error "Expecting value: line 1 column 1 (char 0)"

def verdictWire : Wire where
  sseKeepaliveInterval := 15
  dumps := plainDumps
  loads := verdictLoads
  str _ := "None"

theorem verdictWire_loads (terminal : Bool) :
    verdictWire.loads ((verdictEvent terminal).text verdictWire) =
      .ok (verdictPayload terminal) := by
  rw [show verdictWire.loads = verdictLoads from rfl, PlainEvent.text,
    show verdictWire.dumps = plainDumps from rfl, ← verdictPayload]
  cases terminal with
  | false => rw [verdictLoads, if_pos rfl]
  | true => rw [verdictLoads, if_neg (by decide), if_pos rfl]

theorem verdictWire_done : ∃ e, verdictWire.loads doneMessage = .error e := by
  rw [show verdictWire.loads = verdictLoads from rfl, verdictLoads,
    if_neg (by decide), if_neg (by decide)]
  exact ⟨_, rfl⟩

end Orchestrator
