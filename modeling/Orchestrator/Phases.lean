import Orchestrator.Concurrency.Logic
import Orchestrator.Streams

namespace Orchestrator
open Concurrency Async
set_option autoImplicit true

/-- How a stream has come to its end. -/
inductive Ending where
  | notFound
  | empty
  | sentinel
  | terminal (frame : SseFrame)
  | disconnected
  | raised (exc : Exc)

def Ending.outcome : Ending → Except Exc Streamed
  | .notFound => .ok .notFound
  | .empty => .ok .empty
  | .sentinel | .terminal _ => .ok .ended
  | .disconnected => .ok .disconnected
  | .raised exc => .error exc

/-- How far a stream is: a `refused` one never subscribes, an `opening` one has found an unfinished
task and is not subscribed yet, a `listening` one has no message in hand, and a `closing` one has
sent a terminal frame. -/
inductive Phase where
  | gone
  | asking (id : String)
  | refused (id : String) (ending : Ending)
  | opening (id : String)
  | listening (id : String)
  | holding (id : String) (msg : Message)
  | showing (id : String) (event : EventProxy)
  | framing (id : String) (frame : SseFrame)
  | closing (id : String) (frame : SseFrame)
  | leaving (id : String) (ending : Ending)
  | ended (id : String) (ending : Ending)

/-- The commands of a stream without a message in hand. -/
def SseCmd.waits : SseCmd → Bool
  | .time | .getMessage | .isDisconnected | .send .keepalive | .sleep => true
  | _ => false

namespace Phase

/-- The task whose channel a stream is subscribed to. -/
def subscribed : Phase → Option String
  | .listening id | .holding id _ | .showing id _ | .framing id _ | .closing id _
  | .leaving id _ => some id
  | _ => none

/-- The commands that come next. -/
def sends : Phase → SseCmd → Prop
  | .asking id, c => c = .get id
  | .opening id, c => c = .subscribe (channel id)
  | .listening _, c => c.waits = true
  | .holding .., c => c = .time
  | .showing .., c => c = .isDisconnected
  | .framing _ frame, c => c = .send (.event frame)
  | .closing id _, c => c = .publish (channel id) doneMessage
  | .leaving id _, c => c = .unsubscribe (channel id)
  | _, _ => False

/-- What is done with a message. -/
def heed (W : Wire) (id : String) (msg : Message) : Phase :=
  if msg.type ≠ "message" then .listening id
  else if msg.data = doneMessage then .leaving id .sentinel
  else match W.loads msg.data with
    | .error _ => .listening id
    | .ok raw => match EventBus.proxy raw with
      | .ok event => .showing id event
      | .error exc => .leaving id (.raised exc)

/-- What is done with an event whose client is there. -/
def frame (W : Wire) (id : String) (event : EventProxy) : Phase :=
  match buildSseFrame W event with
  | .ok frame => .framing id frame
  | .error exc => .leaving id (.raised exc)

section
variable [TaskJson Text]

/-- What is done with the record. -/
def asked (id : String) : Except Exc (Option Text) → Phase
  | .error exc => .refused id (.raised exc)
  | .ok none => .refused id .notFound
  | .ok (some raw) => match (modelValidateJson raw : Except String Task) with
    | .error msg => .refused id (.raised ⟨.value, msg⟩)
    | .ok task => if task.isTerminal then .refused id .empty else .opening id

/-- The phase after a command. -/
def after (W : Wire) : Phase → (c : SseCmd) → c.Answer Text → Phase
  | .asking id, .get _, r => asked id r
  | .opening id, .subscribe _, .ok _ => .listening id
  | .opening id, .subscribe _, .error exc => .refused id (.raised exc)
  | .listening id, .getMessage, .ok (some msg) => .holding id msg
  | .listening id, .isDisconnected, .ok true => .leaving id .disconnected
  | .holding id msg, .time, _ => heed W id msg
  | .showing id _, .isDisconnected, .ok true => .leaving id .disconnected
  | .showing id event, .isDisconnected, .ok false => frame W id event
  | .framing id frame, .send _, .ok _ =>
    if isTerminalEvent frame.event then .closing id frame else .listening id
  | .closing id frame, .publish .., .ok _ => .leaving id (.terminal frame)
  | .leaving id ending, .unsubscribe _, .ok _ => .ended id ending
  | .leaving id ending, .unsubscribe _, .error exc =>
    .ended id (if exc.isException then ending else .raised exc)
  | .listening id, _, .error exc | .showing id _, _, .error exc | .framing id _, _, .error exc
  | .closing id _, _, .error exc => .leaving id (.raised exc)
  | d, _, _ => d

end

/-- The phase in which a coroutine of this kind returns this. -/
def Returns : Phase → SseKind → Except Exc Streamed → Prop
  | .listening id, q, b => ∃ t, q = .stream id ∧ b = .ok (.opened t) ∨
      ∃ last, q = .poll id last ∧ b = .ok (.again t)
  | .refused id ending, q, b => q = .stream id ∧ b = ending.outcome
  | .ended id ending, q, b => (∃ last, q = .poll id last) ∧ b = ending.outcome
  | _, _, _ => False

end Phase

/-- A stream that has asked for its record is not subscribed and not over. -/
theorem Phase.asked_cases [TaskJson Text] (id : String) (r : Except Exc (Option Text)) :
    Phase.asked id r = .opening id ∨ ∃ ending, Phase.asked id r = .refused id ending := by
  unfold Phase.asked
  split
  · exact .inr ⟨_, rfl⟩
  · exact .inr ⟨_, rfl⟩
  · split
    · exact .inr ⟨_, rfl⟩
    · split
      · exact .inr ⟨_, rfl⟩
      · exact .inl rfl

/-- A stream is refused without an exception of its own because the task is finished. -/
theorem Phase.asked_refused [TaskJson Text] {id id' : String} {raw : Option Text} {ending : Ending}
    (h : Phase.asked id (.ok raw) = .refused id' ending) :
    id' = id ∧ ((ending = .notFound ∨ ∃ msg, ending = .raised ⟨.value, msg⟩) ∨
      ending = .empty ∧ ∃ task, raw.bind parse = some task ∧ task.isTerminal = true) := by
  cases raw with
  | none =>
    cases h
    exact ⟨rfl, .inl (.inl rfl)⟩
  | some raw =>
    cases ht : (modelValidateJson raw : Except String Task) with
    | error msg =>
      rw [Phase.asked, ht] at h
      cases h
      exact ⟨rfl, .inl (.inr ⟨msg, rfl⟩)⟩
    | ok task =>
      simp only [Phase.asked, ht] at h
      cases hterm : task.isTerminal with
      | false =>
        rw [hterm] at h
        cases h
      | true =>
        rw [hterm] at h
        cases h
        exact ⟨rfl, .inr ⟨rfl, task, parse_eq_some.2 ht, hterm⟩⟩

/-- A stream goes on to its subscription because the task is unfinished. -/
theorem Phase.asked_opening [TaskJson Text] {id id' : String} {raw : Option Text}
    (h : Phase.asked id (.ok raw) = .opening id') :
    id' = id ∧ ∃ task, raw.bind parse = some task ∧ task.isTerminal = false := by
  cases raw with
  | none => cases h
  | some raw =>
    cases ht : (modelValidateJson raw : Except String Task) with
    | error msg =>
      rw [Phase.asked, ht] at h
      cases h
    | ok task =>
      simp only [Phase.asked, ht] at h
      cases hterm : task.isTerminal with
      | false =>
        rw [hterm] at h
        cases h
        exact ⟨rfl, task, parse_eq_some.2 ht, hterm⟩
      | true =>
        rw [hterm] at h
        cases h

theorem nextPoll_outcome (q : SseKind) (ending : Ending) : nextPoll q ending.outcome = none := by
  cases q <;> cases ending <;> rfl

theorem Phase.Returns.refused {id : String} {ending : Ending} {q : SseKind}
    {b : Except Exc Streamed} (h : (Phase.refused id ending).Returns q b) :
    nextPoll q b = none := by
  obtain ⟨_, rfl⟩ := h
  exact nextPoll_outcome q ending

theorem Phase.Returns.ended {id : String} {ending : Ending} {q : SseKind}
    {b : Except Exc Streamed} (h : (Phase.ended id ending).Returns q b) : nextPoll q b = none := by
  obtain ⟨_, rfl⟩ := h
  exact nextPoll_outcome q ending

def SseKind.entry : SseKind → Phase
  | .stream id => .asking id
  | .poll id _ => .listening id

/-- A coroutine that returns goes on listening, or has no subscription any more. -/
theorem Phase.Returns.next {d : Phase} {q : SseKind} {b : Except Exc Streamed}
    (h : d.Returns q b) :
    (∃ id, d = .listening id ∧ (nextPoll q b).elim .gone SseKind.entry = .listening id) ∨
      (nextPoll q b).elim .gone SseKind.entry = .gone ∧ d.subscribed = none := by
  cases d with
  | listening id =>
    obtain ⟨t, ⟨rfl, rfl⟩ | ⟨last, rfl, rfl⟩⟩ := h
    · exact .inl ⟨id, rfl, rfl⟩
    · exact .inl ⟨id, rfl, rfl⟩
  | refused id ending => exact .inr ⟨by rw [h.refused]; rfl, rfl⟩
  | ended id ending => exact .inr ⟨by rw [h.ended]; rfl, rfl⟩
  | _ => exact h.elim

/-- What `pollMessage` leaves behind. -/
def Polled (id : String) (b : Except Exc Streamed) (d : Phase) : Prop :=
  d = .listening id ∧ (∃ t, b = .ok (.again t)) ∨
    ∃ ending, d = .leaving id ending ∧ b = ending.outcome

theorem polled_again (id : String) (t : Rat) : Polled id (.ok (.again t)) (.listening id) :=
  .inl ⟨rfl, t, rfl⟩

theorem polled_outcome (id : String) (ending : Ending) :
    Polled id ending.outcome (.leaving id ending) := .inr ⟨_, rfl, rfl⟩

variable [TaskJson Text] {G : Source Text B L} {W : Wire}

/-- An invariant on the phases of the streams that every step keeps. -/
structure Followed (A : Assertion (streams G W) Phase) (h₀ : Hub B) : Prop where
  start : A.inv [] h₀ fun _ => .gone
  move : ∀ tr h ds i c r h' l, A.inv tr h ds → (streams G W).Answer i c r h h' l → A.ok tr h l h' →
    (ds i).sends c → A.guar h l h' ∧ A.inv (l :: tr) h' (Function.update ds i ((ds i).after W c r))
  spawn : ∀ tr h ds i id, A.inv tr h ds → ds i = .gone → A.ok tr h (.spawn i (.stream id)) h →
    A.guar h (.spawn i (.stream id)) h ∧
      A.inv (.spawn i (.stream id) :: tr) h (Function.update ds i (.asking id))
  exit : ∀ tr h ds i q b, A.inv tr h ds → (ds i).Returns q b → A.ok tr h (.exit i q b) h →
    A.guar h (.exit i q b) h ∧ A.inv (.exit i q b :: tr) h
      (Function.update ds i ((nextPoll q b).elim .gone SseKind.entry))
  env : ∀ tr h ds e h', A.inv tr h ds → sourceStep G e h h' → A.ok tr h (.env e) h' →
    A.guar h (.env e) h' ∧ A.inv (.env e :: tr) h' ds
  halt : ∀ tr h ds, A.inv tr h ds → A.ok tr h .halt { h with inbox := fun _ => none } →
    A.guar h .halt { h with inbox := fun _ => none } ∧
      A.inv (.halt :: tr) { h with inbox := fun _ => none } fun _ => .gone

section
variable {A : Assertion (streams G W) Phase} {h₀ : Hub B} {i : Nat}

theorem sse_time {r : SseCmd.time.Answer Text} {h h' : Hub B} {l : SseLabel Text L}
    (ha : (streams G W).Answer i .time r h h' l) : ∃ t, r = .ok t := by
  cases ha with
  | cmd hx => exact hx.1
  | abort hx => exact absurd rfl hx.1

variable (hA : Followed A h₀)
include hA

theorem wp_sse {c : SseCmd} {d : Phase} (hc : d.sends c)
    {Q : c.Reply Text → Unit → Phase → Prop} {X : Exc → Unit → Phase → Prop} {s : Unit}
    (hQ : ∀ a, Q a s (d.after W c (.ok a : c.Answer Text)))
    (hX : ∀ e, c ≠ .time → X e s (d.after W c (.error e : c.Answer Text))) :
    Wp A i (askSse c) Q X s d := by
  apply Wp.call
  rintro tr h ds l r h' hi rfl ha hok
  obtain ⟨hg, hi'⟩ := hA.move _ _ _ _ _ _ _ _ hi ha hok hc
  refine ⟨hg, _, hi', ?_⟩
  cases r with
  | ok a => exact hQ a
  | error e =>
    refine hX e fun ht => ?_
    subst ht
    obtain ⟨t, he⟩ := sse_time ha
    cases he

theorem wp_time {d : Phase} (hc : d.sends .time) {Q : Rat → Unit → Phase → Prop}
    {X : Exc → Unit → Phase → Prop} {s : Unit}
    (hQ : ∀ t, Q t s (d.after W .time (.ok t : SseCmd.time.Answer Text))) :
    Wp A i (askSse .time : Sse Text Rat) Q X s d :=
  wp_sse hA hc hQ fun _ h => absurd rfl h

theorem wp_yieldEvent (id : String) (now : Rat) (event : EventProxy) {s : Unit} :
    Wp A i (yieldEvent W id now event) (fun out _ d => Polled id (.ok out) d)
      (fun e _ d => Polled id (.error e) d) s (.showing id event) := by
  apply Wp.bind
  apply wp_sse hA (by exact rfl)
  · rintro (_ | _)
    · apply Wp.bind
      dsimp only [Phase.after]
      unfold Phase.frame
      cases buildSseFrame W event with
      | error e => exact polled_outcome id (.raised e)
      | ok frame =>
        apply Wp.bind
        apply wp_sse hA (by exact rfl)
        · intro _
          dsimp only [Phase.after]
          split
          · apply Wp.bind
            apply wp_sse hA (by exact rfl)
            · exact fun _ => Wp.pure _ (polled_outcome id (.terminal frame))
            · exact fun e _ => polled_outcome id (.raised e)
          · exact Wp.pure _ (polled_again id now)
        · exact fun e _ => polled_outcome id (.raised e)
    · exact Wp.pure _ (polled_outcome id .disconnected)
  · exact fun e _ => polled_outcome id (.raised e)

theorem wp_yieldKeepalive (id : String) (now : Rat) {s : Unit} :
    Wp A i (yieldKeepalive now) (fun out _ d => Polled id (.ok out) d)
      (fun e _ d => Polled id (.error e) d) s (.listening id) := by
  apply Wp.bind
  apply wp_sse hA (by exact rfl)
  · rintro (_ | _)
    · apply Wp.bind
      apply wp_sse hA (by exact rfl)
      · exact fun _ => Wp.pure _ (polled_again id now)
      · exact fun e _ => polled_outcome id (.raised e)
    · exact Wp.pure _ (polled_outcome id .disconnected)
  · exact fun e _ => polled_outcome id (.raised e)

theorem wp_pollMessage (id : String) (last : Rat) {s : Unit} :
    Wp A i (pollMessage W id last) (fun out _ d => Polled id (.ok out) d)
      (fun e _ d => Polled id (.error e) d) s (.listening id) := by
  apply Wp.bind
  apply wp_sse hA (by exact rfl)
  · rintro (_ | msg)
    · apply Wp.bind
      apply wp_time hA (by exact rfl)
      intro now
      dsimp only
      split
      · exact wp_yieldKeepalive hA id now
      · apply Wp.bind
        apply wp_sse hA (by exact rfl)
        · exact fun _ => Wp.pure _ (polled_again id last)
        · exact fun e _ => polled_outcome id (.raised e)
    · apply Wp.bind
      apply wp_time hA (by exact rfl)
      intro now
      dsimp only [Phase.after]
      unfold Phase.heed
      split
      · exact Wp.pure _ (polled_again id last)
      · split
        · exact Wp.pure _ (polled_outcome id .sentinel)
        · cases W.loads msg.data with
          | error _ => exact Wp.pure _ (polled_again id last)
          | ok raw =>
            apply Wp.bind
            dsimp only
            cases EventBus.proxy raw with
            | error e => exact polled_outcome id (.raised e)
            | ok event => exact wp_yieldEvent hA id now event
  · exact fun e _ => polled_outcome id (.raised e)

/-- The subscription is given up, unless a cancellation comes in between. -/
theorem wp_leaveChannel (id : String) (ending : Ending) {s : Unit} :
    Wp A i (leaveChannel id) (fun _ _ d => d = .ended id ending)
      (fun e _ d => d = .ended id (.raised e)) s (.leaving id ending) := by
  apply Wp.bind
  apply Wp.attempt
  apply wp_sse hA (by exact rfl)
  · exact fun _ => Wp.pure _ rfl
  · intro e _
    dsimp only [Phase.after]
    split
    · exact Wp.pure _ rfl
    · exact Wp.raise _ rfl

theorem wp_poll (id : String) (last : Rat) {s : Unit} :
    Wp A i (poll W id last) (fun out _ d => d.Returns (.poll id last) (.ok out))
      (fun e _ d => d.Returns (.poll id last) (.error e)) s (.listening id) := by
  have hover {ending : Ending} {b : Except Exc Streamed} (h : b = ending.outcome) :
      (Phase.ended id ending).Returns (.poll id last) b := ⟨⟨last, rfl⟩, h⟩
  apply Wp.bind
  apply Wp.attempt
  apply Wp.mono (wp_pollMessage hA id last)
  · rintro out s d (⟨rfl, t, ht⟩ | ⟨ending, rfl, ho⟩)
    · obtain rfl := Except.ok.inj ht
      exact Wp.pure _ ⟨t, .inr ⟨last, rfl, rfl⟩⟩
    · have hleave : Wp A i (do leaveChannel id; return out : Sse Text Streamed)
          (fun out _ d => d.Returns (.poll id last) (.ok out))
          (fun e _ d => d.Returns (.poll id last) (.error e)) s (.leaving id ending) := by
        apply Wp.bind
        apply Wp.mono (wp_leaveChannel hA id ending)
        · rintro _ s d rfl
          exact Wp.pure _ (hover ho)
        · rintro e s d rfl
          exact hover rfl
      cases out with
      | again t => cases ending <;> cases ho
      | notFound | empty | opened _ | ended | disconnected => exact hleave
  · rintro e s d (⟨_, t, ht⟩ | ⟨ending, rfl, ho⟩)
    · cases ht
    · apply Wp.bind
      apply Wp.mono (wp_leaveChannel hA id ending)
      · rintro _ s d rfl
        exact Wp.raise _ (hover ho)
      · rintro e s d rfl
        exact hover rfl

theorem wp_streamTask (id : String) {s : Unit} :
    Wp A i (streamTask id) (fun out _ d => d.Returns (.stream id) (.ok out))
      (fun e _ d => d.Returns (.stream id) (.error e)) s (.asking id) := by
  have hover (ending : Ending) : (Phase.refused id ending).Returns (.stream id) ending.outcome :=
    ⟨rfl, rfl⟩
  apply Wp.bind
  apply wp_sse hA (by exact rfl)
  · rintro (_ | raw)
    · exact Wp.pure _ (hover .notFound)
    · dsimp only [Phase.after, Phase.asked]
      cases (modelValidateJson raw : Except String Task) with
      | error msg => exact Wp.raise _ (hover (.raised ⟨.value, msg⟩))
      | ok task =>
        dsimp only
        split
        · exact Wp.pure _ (hover .empty)
        · apply Wp.bind
          apply wp_sse hA (by exact rfl)
          · intro _
            apply Wp.bind
            apply wp_time hA (by exact rfl)
            intro t
            exact Wp.pure _ ⟨t, .inl ⟨rfl, rfl⟩⟩
          · exact fun e _ => hover (.raised e)
  · exact fun e _ => hover (.raised e)

theorem sse_body (q : SseKind) :
    Safe A i (fun b d => d.Returns q b) ((streams G W).body q) q.entry := by
  apply Wp.start
  cases q with
  | stream id => exact wp_streamTask hA id
  | poll id last => exact wp_poll hA id last

/-- An invariant that every step keeps holds in every run. -/
theorem Followed.sound : A.Sound .gone (fun q b d => d.Returns q b) h₀ where
  start := hA.start
  spawn := by
    rintro tr h ds i q h' hi hd ⟨⟨id, rfl⟩, rfl⟩ hok
    obtain ⟨hg, hi'⟩ := hA.spawn tr _ ds i id hi hd hok
    exact ⟨hg, _, hi', sse_body hA (.stream id)⟩
  exit := by
    rintro tr h ds i q b h' o hi hd ⟨rfl, rfl⟩ hok
    obtain ⟨hg, hi'⟩ := hA.exit tr _ ds i q b hi hd hok
    refine ⟨hg, ?_⟩
    cases hn : nextPoll q b with
    | none =>
      rw [hn] at hi'
      exact hi'
    | some q' =>
      rw [hn] at hi'
      exact ⟨_, hi', sse_body hA q'⟩
  env := fun tr h ds e h' hi he hok => hA.env tr h ds e h' hi he hok
  halt := by
    rintro tr h ds h' hi rfl hok
    exact hA.halt tr h ds hi hok

end

end Orchestrator
