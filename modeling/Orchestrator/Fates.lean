import Orchestrator.Hearing

namespace Orchestrator
open Concurrency Async
set_option autoImplicit true

/-- The end that a terminal frame brings to its stream. -/
def SseFrame.ending (frame : SseFrame) : Option Ending :=
  if isTerminalEvent frame.event then some (.terminal frame) else none

def EventProxy.ending (W : Wire) (event : EventProxy) : Option Ending :=
  match buildSseFrame W event with
  | .ok frame => frame.ending
  | .error exc => some (.raised exc)

def Message.ending (W : Wire) (msg : Message) : Option Ending :=
  if msg.type ≠ "message" then none
  else if msg.data = doneMessage then some .sentinel
  else match W.loads msg.data with
    | .error _ => none
    | .ok raw => match EventBus.proxy raw with
      | .ok event => event.ending W
      | .error exc => some (.raised exc)

/-- The end that messages bring to a stream. The first one that brings one counts. -/
def fateOf (W : Wire) (q : List String) : Option Ending :=
  q.findSome? fun data => Message.ending W ⟨"message", data⟩

/-- How a stream is going to end, as far as its messages tell. -/
def Phase.fate (W : Wire) (q : List String) : Phase → Option Ending
  | .gone | .asking _ | .opening _ => none
  | .listening _ => fateOf W q
  | .holding _ msg => (msg.ending W).or (fateOf W q)
  | .showing _ event => (event.ending W).or (fateOf W q)
  | .framing _ frame => frame.ending.or (fateOf W q)
  | .closing _ frame => some (.terminal frame)
  | .refused _ ending | .leaving _ ending | .ended _ ending => some ending

theorem fateOf_append (W : Wire) (q q' : List String) :
    fateOf W (q ++ q') = (fateOf W q).or (fateOf W q') := List.findSome?_append

theorem fateOf_cons (W : Wire) (data : String) (q : List String) :
    fateOf W (data :: q) = (Message.ending W ⟨"message", data⟩).or (fateOf W q) := by
  rw [fateOf, List.findSome?_cons]
  cases Message.ending W ⟨"message", data⟩ <;> rfl

theorem fateOf_done (W : Wire) {q : List String} (hq : doneMessage ∈ q) : fateOf W q ≠ none := by
  intro hn
  have hm := List.findSome?_eq_none_iff.1 hn doneMessage hq
  cases hm

/-- Messages that come in decide about a stream only if nothing has before. -/
theorem Phase.fate_append (W : Wire) (q q' : List String) {d : Phase} {id : String}
    (hd : d.subscribed = some id) : d.fate W (q ++ q') = (d.fate W q).or (fateOf W q') := by
  cases d with
  | listening id' => exact fateOf_append W q q'
  | holding _ _ | showing _ _ | framing _ _ =>
    rw [fate, fate, fateOf_append, Option.or_assoc]
  | closing _ _ | leaving _ _ => rfl
  | gone | asking _ | opening _ | refused _ _ | ended _ _ => cases hd

section
variable [TaskJson Text] {G : Source Text B L} {W : Wire} {i : Nat} {c : SseCmd}
  {r : c.Answer Text} {h h' : Hub B} {l : SseLabel Text L} {d : Phase} {id : String}
  {q : List String}

theorem Phase.heed_fate (id : String) (msg : Message) (q : List String) :
    (heed W id msg).fate W q = (msg.ending W).or (fateOf W q) := by
  unfold heed Message.ending
  split
  · rfl
  · split
    · rfl
    · cases W.loads msg.data with
      | error _ => rfl
      | ok raw =>
        dsimp only
        cases EventBus.proxy raw <;> rfl

theorem Phase.frame_fate (id : String) (event : EventProxy) (q : List String) :
    (Phase.frame W id event).fate W q = (event.ending W).or (fateOf W q) := by
  unfold Phase.frame EventProxy.ending
  cases buildSseFrame W event <;> rfl

/-- A command other than the wait for a message does not change how a stream is going to end, unless
it finds that the client has left, or raises. -/
theorem Phase.fate_after (hc : d.sends c) (hd : d.subscribed = some id) (hm : c ≠ .getMessage)
    (q : List String) : (d.after W c r).fate W q = d.fate W q ∨
      (∃ a, r = .ok a) ∧ (d.after W c r).fate W q = some .disconnected ∨
      ∃ exc, r = .error exc ∧ (d.after W c r).fate W q = some (.raised exc) := by
  cases d with
  | listening id' =>
    rcases r with e | a
    · cases c <;> exact .inr (.inr ⟨e, rfl, rfl⟩)
    · cases c with
      | isDisconnected =>
        cases a with
        | true => exact .inr (.inl ⟨⟨_, rfl⟩, rfl⟩)
        | false => exact .inl rfl
      | time | sleep | send _ => exact .inl rfl
      | getMessage => exact absurd rfl hm
      | get _ | subscribe _ | publish _ _ | unsubscribe _ => cases hc
  | holding id' msg =>
    obtain rfl := hc
    exact .inl (heed_fate id' msg q)
  | showing id' event =>
    obtain rfl := hc
    rcases r with e | _ | _
    · exact .inr (.inr ⟨e, rfl, rfl⟩)
    · exact .inl (frame_fate id' event q)
    · exact .inr (.inl ⟨⟨_, rfl⟩, rfl⟩)
  | framing id' f =>
    obtain rfl := hc
    rcases r with e | _
    · exact .inr (.inr ⟨e, rfl, rfl⟩)
    · rw [after, fate, SseFrame.ending]
      left
      split <;> rfl
  | closing id' f =>
    obtain rfl := hc
    rcases r with e | _
    · exact .inr (.inr ⟨e, rfl, rfl⟩)
    · exact .inl rfl
  | leaving id' ending =>
    obtain rfl := hc
    rcases r with e | _
    · rw [after]
      split
      · exact .inl rfl
      · exact .inr (.inr ⟨e, rfl, rfl⟩)
    · exact .inl rfl
  | gone | asking _ | opening _ | refused _ _ | ended _ _ => cases hd

/-- The messages of a stream matter only as long as it heeds them. -/
theorem Phase.fate_of_not_hears (hd : d.hears = none) (q q' : List String) :
    d.fate W q = d.fate W q' := by
  cases d with
  | listening _ | holding _ _ | showing _ _ | framing _ _ => cases hd
  | _ => rfl

omit [TaskJson Text] in
/-- Of its own commands, only the wait for a message changes the messages of a stream that heeds
them. -/
theorem queue_own (hx : sseExec G i c r h h') (hc : d.sends c) (hd : d.hears = some id)
    (hm : c ≠ .getMessage) : h'.queue i = h.queue i := by
  cases c with
  | getMessage => exact absurd rfl hm
  | get _ | subscribe _ | publish _ _ | unsubscribe _ =>
    cases d with
    | listening _ | holding _ _ | showing _ _ | framing _ _ => cases hc
    | _ => cases hd
  | time | sleep | isDisconnected | send _ =>
    obtain ⟨-, rfl⟩ := hx
    rfl

/-- A command of a stream does not change how the stream is going to end, unless it finds that the
client has left, or is cut short. -/
theorem Phase.fate_own (ha : (streams G W).Answer i c r h h' l) (hc : d.sends c)
    (hd : d.subscribed = some id) (hq : h.inbox i = some (channel id, q)) :
    (d.after W c r).fate W (h'.queue i) = d.fate W q ∨
      (∃ a, r = .ok a) ∧ (d.after W c r).fate W (h'.queue i) = some .disconnected ∨
      ∃ exc, r = .error exc ∧ (d.after W c r).fate W (h'.queue i) = some (.raised exc) := by
  by_cases hm : c = .getMessage
  · subst hm
    cases d with
    | listening id' =>
      rcases r with e | a
      · exact .inr (.inr ⟨e, rfl, rfl⟩)
      · cases ha with
        | cmd hx =>
          obtain ⟨he, rfl⟩ | ⟨ch, data, rest, hin, he, rfl⟩ := hx
          · obtain rfl := Except.ok.inj he
            rw [Hub.queue_eq hq]
            exact .inl rfl
          · obtain rfl := Except.ok.inj he
            obtain ⟨rfl, rfl⟩ := Prod.mk.inj (Option.some.inj (hq.symm.trans hin))
            rw [Hub.queue_eq (Function.update_self ..)]
            exact .inl (fateOf_cons W data rest).symm
        | abort hx =>
          obtain ⟨-, e, he, -⟩ := hx
          cases he
    | gone | asking _ | opening _ | refused _ _ | ended _ _ => cases hd
    | holding _ _ | showing _ _ | framing _ _ | closing _ _ | leaving _ _ => cases hc
  · have hsame : d.fate W (h'.queue i) = d.fate W q := by
      cases hh : d.hears with
      | none => exact fate_of_not_hears hh _ _
      | some id' =>
        rw [← Hub.queue_eq hq]
        cases ha with
        | cmd hx => rw [queue_own hx hc hh hm]
        | abort hx =>
          obtain ⟨-, e, -, -, rfl | ⟨a, hx⟩⟩ := hx
          · rfl
          · rw [queue_own hx hc hh hm]
    rw [← hsame]
    exact fate_after hc hd hm _

/-- Messages for a stream that is on its way do not put off its end. -/
theorem Phase.fate_deliver (W : Wire) {messages : List (String × String)}
    (hd : d.subscribed = some id) (hq : h.inbox i = some (channel id, q))
    (hin : h'.inbox i = (h.deliver messages).inbox i) : d.fate W (h'.queue i) =
      (d.fate W (h.queue i)).or
        (fateOf W ((messages.filter (·.1 = channel id)).map (·.2))) := by
  have hq' : h'.inbox i =
      some (channel id, q ++ (messages.filter (·.1 = channel id)).map (·.2)) := by
    rw [hin, Hub.deliver_inbox, hq, Option.map_some]
  rw [Hub.queue_eq hq', Hub.queue_eq hq, Phase.fate_append W _ _ hd]

end

end Orchestrator
