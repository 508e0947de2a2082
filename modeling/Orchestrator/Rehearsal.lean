import Orchestrator.Concurrency.Driver
import Orchestrator.Streams

namespace Orchestrator
open Concurrency Async
set_option autoImplicit true

/-- What a schedule says about the next reply to a stream: nothing, that the client has left, that
no message has come in time, or the exception to raise, before or after the command has had its
effect. -/
inductive SseHint where
  | auto
  | left
  | silent
  | fails (e : Exc) (done : Bool)
  deriving DecidableEq

/-- The message that a subscription gives next. -/
def nextMessage (x : SseHint) (i : Nat) (h : Hub B) :
    Except Exc (Option Message) × Hub B :=
  match x, h.inbox i with
  | .silent, _ => (.ok none, h)
  | _, some (ch, data :: rest) =>
    (.ok (some ⟨"message", data⟩), h.setInbox i (some (ch, rest)))
  | _, _ => (.ok none, h)

/-- A computed reply to a command of a stream. The clock stands still. -/
def sseAnswer (G : Source Text B L) (x : SseHint) (i : Nat) (c : SseCmd) (h : Hub B) :
    Option (c.Answer Text × Hub B) :=
  match c with
  | .get id => some (.ok (G.record h.base id), h)
  | .subscribe ch => some (.ok (), h.setInbox i (some (ch, [])))
  | .time => some (.ok 0, h)
  | .getMessage => some (nextMessage x i h)
  | .sleep => some (.ok (), h)
  | .isDisconnected => some (.ok (x = .left), h)
  | .send _ => some (.ok (), h)
  | .publish ch data => some (.ok (), h.deliver [(ch, data)])
  | .unsubscribe _ => some (.ok (), h.setInbox i none)

theorem sseAnswer_exec {G : Source Text B L} {x : SseHint} {i : Nat} {c : SseCmd}
    {r : c.Answer Text} {h h' : Hub B} (ha : sseAnswer G x i c h = some (r, h')) :
    sseExec G i c r h h' := by
  have hpair {o : c.Answer Text × Hub B} (he : some o = some (r, h')) : o.1 = r ∧ o.2 = h' :=
    Prod.mk.inj (Option.some.inj he)
  cases c with
  | get id | subscribe ch | sleep | send _ | publish ch data | unsubscribe ch =>
    obtain ⟨rfl, rfl⟩ := hpair ha
    exact ⟨rfl, rfl⟩
  | time | isDisconnected =>
    obtain ⟨rfl, rfl⟩ := hpair ha
    exact ⟨⟨_, rfl⟩, rfl⟩
  | getMessage =>
    have hm : nextMessage x i h = (r, h') := Option.some.inj ha
    unfold nextMessage at hm
    split at hm
    · obtain ⟨rfl, rfl⟩ := Prod.mk.inj hm
      exact .inl ⟨rfl, rfl⟩
    · rename_i ch data rest _ hin
      obtain ⟨rfl, rfl⟩ := Prod.mk.inj hm
      exact .inr ⟨ch, data, rest, hin, rfl, rfl⟩
    · obtain ⟨rfl, rfl⟩ := Prod.mk.inj hm
      exact .inl ⟨rfl, rfl⟩

/-- A computed failure of a command. -/
def sseFailure (G : Source Text B L) (x : SseHint) (i : Nat) (c : SseCmd) (h : Hub B) :
    Option (c.Answer Text × Hub B) :=
  match x with
  | .fails e done =>
    if c ≠ .time ∧ (e.cls = .cancelled ∨ e.cls = .other) then
      if done then
        match sseAnswer G .auto i c h with
        | some (.ok _, h') => some (.error e, h')
        | _ => none
      else some (.error e, h)
    else none
  | _ => none

theorem sseFailure_abort {G : Source Text B L} {x : SseHint} {i : Nat} {c : SseCmd}
    {r : c.Answer Text} {h h' : Hub B} (ha : sseFailure G x i c h = some (r, h')) :
    sseAbort G i c r h h' := by
  cases x with
  | fails e done =>
    simp only [sseFailure] at ha
    split at ha
    · rename_i hc
      split at ha
      · split at ha
        · rename_i a h₁ hx
          obtain ⟨rfl, rfl⟩ := Prod.mk.inj (Option.some.inj ha)
          exact ⟨hc.1, e, rfl, hc.2, .inr ⟨a, sseAnswer_exec hx⟩⟩
        · cases ha
      · obtain ⟨rfl, rfl⟩ := Prod.mk.inj (Option.some.inj ha)
        exact ⟨hc.1, e, rfl, hc.2, .inl rfl⟩
    · cases ha
  | auto | left | silent => cases ha

/-- How the stream of process `i` has ended, or that it goes on. -/
def streamed (i : Nat) (s : SseConfig Text B) : Option Streamed :=
  match s.pool i with
  | some (.poll .., .ret (.ok out)) => some out
  | _ => none

theorem streamed_eq_some {i : Nat} {s : SseConfig Text B} {out : Streamed}
    (h : streamed i s = some out) : ∃ id t, s.pool i = some (.poll id t, .ret (.ok out)) := by
  unfold streamed at h
  split at h
  · rename_i id t out' hp
    obtain rfl := Option.some.inj h
    exact ⟨id, t, hp⟩
  · cases h

/-- The source takes a step, and its messages are delivered. -/
def sseForward (G : Source Text B L) (b : B) (h : Hub B) : Option (Hub B) :=
  let messages := (G.published b).drop (G.published h.base).length
  if G.published b = G.published h.base ++ messages then
    some { h.deliver messages with base := b }
  else none

theorem sseForward_step {G : Source Text B L} {l : L} {b : B} {h h' : Hub B}
    (hs : G.step h.base l b) (hf : sseForward G b h = some h') : sourceStep G l h h' := by
  dsimp only [sseForward] at hf
  split at hf
  · rename_i hp
    exact ⟨b, _, hs, hp, (Option.some.inj hf).symm⟩
  · cases hf

section
variable [TaskJson Text] (G : Source Text B L) (W : Wire)

/-- Schedules of streams beside a source whose steps are computed. -/
def sseDriver (next : L → B → Option B) (hnext : ∀ l b b', next l b = some b' → G.step b l b') :
    Driver (streams G W) SseHint where
  cmd := sseAnswer G
  abort := sseFailure G
  spawn q h := match q with
    | .stream _ => some h
    | .poll .. => none
  exit q b h := some (h, nextPoll q b)
  env l h := (next l h.base).bind fun b => sseForward G b h
  halt h := some { h with inbox := fun _ => none }
  cmd_exec := sseAnswer_exec
  abort_abort := sseFailure_abort
  spawn_spawn := by
    intro q h h' hs
    cases q with
    | stream id => exact ⟨⟨id, rfl⟩, (Option.some.inj hs).symm⟩
    | poll _ _ => cases hs
  exit_exit := by
    intro q b h h' o he
    obtain ⟨rfl, rfl⟩ := Prod.mk.inj (Option.some.inj he)
    exact ⟨rfl, rfl⟩
  env_env := by
    intro l h h' he
    obtain ⟨b, hb, hf⟩ := Option.bind_eq_some_iff.1 he
    exact sseForward_step (hnext _ _ _ hb) hf
  halt_halt := by
    intro h h' he
    exact (Option.some.inj he).symm

end

end Orchestrator
