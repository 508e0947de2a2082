import Mathlib.Algebra.Order.Ring.Rat
import Mathlib.Tactic.Linarith
import Orchestrator.Beside

namespace Orchestrator
open Concurrency Async
set_option autoImplicit true

/-- When a stream has last sent its client something, and its latest reading of the clock. -/
structure Pulse where
  frame : Rat
  read : Rat

/-- A frame is sent at the reading before it. The wait for the first one begins with the first
reading, which is that of the subscription. -/
def Pulse.after (d : Option Pulse) : (c : SseCmd) → c.Answer Text → Option Pulse
  | .time, .ok now => some ⟨d.elim now Pulse.frame, now⟩
  | .send _, .ok _ => d.map fun p => ⟨p.read, p.read⟩
  | _, _ => d

/-- The pulse of stream `i` as its labels give it. -/
def pulseOf (i : Nat) : List (SseLabel Text L) → Option Pulse
  | [] => none
  | .cmd j c r :: tr | .abort j c r :: tr =>
    if j = i then Pulse.after (pulseOf i tr) c r else pulseOf i tr
  | .spawn j _ :: tr => if j = i then none else pulseOf i tr
  | .exit j q b :: tr => if j = i ∧ nextPoll q b = none then none else pulseOf i tr
  | .env _ :: tr => pulseOf i tr
  | .halt :: _ => none

section
variable (W : Wire) (P : Rat)

/-- A turn of the loop takes `P` seconds at most, and what is published on a channel is JSON. -/
def brisk : StepFilter SseCmd (SseCmd.Answer Text) (Except Exc Streamed) (Hub B) SseKind L :=
  fun tr _ l _ =>
    match l with
    | .cmd i .time (.ok now) => ∀ p ∈ pulseOf i tr, now ≤ p.read + P
    | .cmd _ .getMessage (.ok (some msg)) =>
      msg.data = doneMessage ∨ (W.loads msg.data).isOk = true
    | _ => True

/-- By the clock of its stream, the client waits for a frame no longer than the interval and one
turn, and it gets a keepalive only after the interval. -/
def OnBeat : List (SseLabel Text L) → Prop
  | .cmd i .time (.ok now) :: tr =>
    ∀ p ∈ pulseOf i tr, now ≤ p.frame + W.sseKeepaliveInterval + P
  | .cmd i (.send .keepalive) _ :: tr | .abort i (.send .keepalive) _ :: tr =>
    ∃ p ∈ pulseOf i tr, p.frame + W.sseKeepaliveInterval ≤ p.read
  | _ => True

/-- The loop goes on from a frame at `t`: the latest reading is that of the frame, or the interval
is not over. -/
def Beat (t : Rat) (d : Option Pulse) : Prop :=
  ∃ now, d = some ⟨t, now⟩ ∧ (now = t ∨ now - t < W.sseKeepaliveInterval)

/-- What a turn of the loop needs. -/
def SseKind.Ready (d : Option Pulse) : SseKind → Prop
  | .stream _ => d = none
  | .poll _ t => Beat W t d

/-- What a turn leaves to the next one, if there is one. -/
def Lasting (out : Streamed) (d : Option Pulse) : Prop := ∀ t, out = .again t → Beat W t d

end

section
variable [TaskJson Text] {G : Source Text B L} {W : Wire} {P : Rat} {i : Nat} {c : SseCmd}
  {r : c.Answer Text} {h h' : Hub B} {l : SseLabel Text L} {tr : List (SseLabel Text L)}
  {ds : Nat → Option Pulse} {d : Option Pulse}

theorem pulseOf_answer (hd : ∀ j, pulseOf j tr = ds j) (ha : (streams G W).Answer i c r h h' l)
    (j : Nat) : pulseOf j (l :: tr) = Function.update ds i (Pulse.after (ds i) c r) j := by
  by_cases hj : j = i
  · rw [hj, Function.update_self, ← hd i]
    cases ha with
    | cmd _ | abort _ => exact if_pos rfl
  · rw [Function.update_of_ne hj, ← hd j]
    cases ha with
    | cmd _ | abort _ => exact if_neg (Ne.symm hj)

variable (G W P) in
/-- The ghost values are the pulses, and every label is regular. -/
def pulsing : Assertion (streams G W) (Option Pulse) where
  ok := brisk W P
  inv tr _ ds := (∀ i, pulseOf i tr = ds i) ∧ OnBeat W P tr
  guar _ _ _ := True

/-- The commands that are no reading of the clock, no message and no frame. -/
def SseCmd.pulseless : SseCmd → Bool
  | .time | .getMessage | .send _ => false
  | _ => true

theorem wp_pulseless (hc : c.pulseless = true) {Q : c.Reply Text → Unit → Option Pulse → Prop}
    {X : Exc → Unit → Option Pulse → Prop} {s : Unit} (hQ : ∀ a, Q a s d) (hX : ∀ e, X e s d) :
    Wp (pulsing G W P) i (askSse c) Q X s d := by
  apply Wp.call
  rintro tr h ds l r h' ⟨hd, -⟩ rfl ha -
  have hafter : Pulse.after (ds i) c r = ds i := by
    cases c with
    | time | getMessage | send _ => cases hc
    | _ => rfl
  have hreg : OnBeat W P (l :: tr) := by
    cases ha with
    | cmd _ | abort _ =>
      cases c with
      | time | getMessage | send _ => cases hc
      | _ => trivial
  refine ⟨trivial, ds i, ⟨hafter ▸ pulseOf_answer hd ha, hreg⟩, ?_⟩
  cases r with
  | ok a => exact hQ a
  | error e => exact hX e

/-- The clock is read. -/
theorem wp_clock {Q : Rat → Unit → Option Pulse → Prop} {X : Exc → Unit → Option Pulse → Prop}
    {s : Unit} (hd : ∀ p ∈ d, p.read ≤ p.frame + W.sseKeepaliveInterval)
    (hQ : ∀ now, Q now s (some ⟨d.elim now Pulse.frame, now⟩)) :
    Wp (pulsing G W P) i (askSse .time : Sse Text Rat) Q X s d := by
  apply Wp.call
  rintro tr h ds l r h' ⟨hds, -⟩ rfl ha hok
  cases ha with
  | cmd hx =>
    obtain ⟨⟨now, rfl⟩, -⟩ := id hx
    refine ⟨trivial, _, ⟨pulseOf_answer hds (.cmd hx), ?_⟩, hQ now⟩
    intro p hp
    have hle : now ≤ p.read + P := hok p hp
    have hread := hd p (hds i ▸ hp)
    change now ≤ p.frame + W.sseKeepaliveInterval + P
    linarith
  | abort hx => exact absurd rfl hx.1

/-- A message is a sentinel or JSON. -/
theorem wp_message {Q : Option Message → Unit → Option Pulse → Prop}
    {X : Exc → Unit → Option Pulse → Prop} {s : Unit} (hnone : Q none s d)
    (hsome : ∀ data, data = doneMessage ∨ (W.loads data).isOk = true →
      Q (some ⟨"message", data⟩) s d) (hX : ∀ e, X e s d) :
    Wp (pulsing G W P) i (askSse .getMessage : Sse Text (Option Message)) Q X s d := by
  apply Wp.call
  rintro tr h ds l r h' ⟨hds, -⟩ rfl ha hok
  have hinv : (∀ j, pulseOf j (l :: tr) = Function.update ds i (ds i) j) := pulseOf_answer hds ha
  cases ha with
  | cmd hx =>
    obtain ⟨rfl, -⟩ | ⟨ch, data, rest, -, rfl, -⟩ := hx
    · exact ⟨trivial, _, ⟨hinv, trivial⟩, hnone⟩
    · exact ⟨trivial, _, ⟨hinv, trivial⟩, hsome data hok⟩
  | abort hx =>
    obtain ⟨-, e, rfl, -⟩ := hx
    exact ⟨trivial, _, ⟨hinv, trivial⟩, hX e⟩

/-- A frame is sent. -/
theorem wp_frame {f : Frame} {t now : Rat} {Q : Unit → Unit → Option Pulse → Prop}
    {X : Exc → Unit → Option Pulse → Prop} {s : Unit}
    (hf : f = .keepalive → t + W.sseKeepaliveInterval ≤ now)
    (hQ : Q () s (some ⟨now, now⟩)) (hX : ∀ e, X e s (some ⟨t, now⟩)) :
    Wp (pulsing G W P) i (askSse (.send f) : Sse Text Unit) Q X s (some ⟨t, now⟩) := by
  apply Wp.call
  rintro tr h ds l r h' ⟨hds, -⟩ hd ha -
  have hinv := pulseOf_answer hds ha
  have hreg : OnBeat W P (l :: tr) := by
    cases f with
    | keepalive =>
      have hp : pulseOf i tr = some ⟨t, now⟩ := (hds i).trans hd
      cases ha with
      | cmd _ | abort _ => exact ⟨_, hp, hf rfl⟩
    | event _ =>
      cases ha with
      | cmd _ | abort _ => trivial
  rw [hd] at hinv
  refine ⟨trivial, _, ⟨hinv, hreg⟩, ?_⟩
  cases r with
  | ok a => exact hQ
  | error e => exact hX e

theorem lasting_of_ne {out : Streamed} (h : ∀ t, out ≠ .again t) : Lasting W out d :=
  fun t ht => absurd ht (h t)

/-- A frame of the loop starts the wait for the next one. -/
theorem lasting_again (now : Rat) : Lasting W (.again now) (some ⟨now, now⟩) := by
  intro t ht
  cases ht
  exact ⟨now, rfl, .inl rfl⟩

theorem wp_pulse_yieldEvent (id : String) (t now : Rat) (event : EventProxy) {s : Unit} :
    Wp (pulsing G W P) i (yieldEvent W id now event) (fun out _ d => Lasting W out d)
      (fun _ _ _ => True) s (some ⟨t, now⟩) := by
  apply Wp.bind
  apply wp_pulseless rfl
  · rintro (_ | _)
    · apply Wp.bind
      cases buildSseFrame W event with
      | error e => exact Wp.raise e trivial
      | ok frame =>
        apply Wp.bind
        apply wp_frame (f := .event frame) fun h => nomatch h
        · split
          · apply Wp.bind
            apply wp_pulseless rfl
            · exact fun _ => Wp.pure _ (lasting_of_ne nofun)
            · exact fun _ => trivial
          · exact Wp.pure _ (lasting_again now)
        · exact fun _ => trivial
    · exact Wp.pure _ (lasting_of_ne nofun)
  · exact fun _ => trivial

theorem wp_pulse_yieldKeepalive {t now : Rat} (hnow : t + W.sseKeepaliveInterval ≤ now)
    {s : Unit} : Wp (pulsing G W P) i (yieldKeepalive now) (fun out _ d => Lasting W out d)
      (fun _ _ _ => True) s (some ⟨t, now⟩) := by
  apply Wp.bind
  apply wp_pulseless rfl
  · rintro (_ | _)
    · apply Wp.bind
      apply wp_frame fun _ => hnow
      · exact Wp.pure _ (lasting_again now)
      · exact fun _ => trivial
    · exact Wp.pure _ (lasting_of_ne nofun)
  · exact fun _ => trivial

/-- One turn of the loop, from one frame to the next or closer to it. -/
theorem wp_pulse_pollMessage (hI : 0 ≤ W.sseKeepaliveInterval) (id : String) {t : Rat}
    (hd : Beat W t d) {s : Unit} :
    Wp (pulsing G W P) i (pollMessage W id t) (fun out _ d => Lasting W out d)
      (fun _ _ _ => True) s d := by
  obtain ⟨read, rfl, hread⟩ := hd
  have hle : ∀ p ∈ some (⟨t, read⟩ : Pulse), p.read ≤ p.frame + W.sseKeepaliveInterval := by
    intro p hp
    cases hp
    change read ≤ t + W.sseKeepaliveInterval
    rcases hread with rfl | hlt <;> linarith
  apply Wp.bind
  apply wp_message
  · apply Wp.bind
    apply wp_clock hle
    intro now
    dsimp only
    split
    · rename_i hdue
      exact wp_pulse_yieldKeepalive (le_sub_iff_add_le'.1 hdue)
    · rename_i hdue
      apply Wp.bind
      apply wp_pulseless rfl
      · refine fun _ => Wp.pure _ fun t' ht => ?_
        cases ht
        exact ⟨now, rfl, .inr (not_le.1 hdue)⟩
      · exact fun _ => trivial
  · intro data hdata
    apply Wp.bind
    apply wp_clock hle
    intro now
    dsimp only
    rw [if_neg (not_not.2 rfl)]
    split
    · exact Wp.pure _ (lasting_of_ne nofun)
    · rename_i hdone
      cases hl : W.loads data with
      | error _ =>
        rw [hl] at hdata
        rcases hdata with he | he
        · exact absurd he hdone
        · cases he
      | ok raw =>
        apply Wp.bind
        cases EventBus.proxy raw with
        | error e => exact Wp.raise e trivial
        | ok event => exact wp_pulse_yieldEvent id t now event
  · exact fun _ => trivial

theorem wp_pulse_leaveChannel (id : String) {s : Unit} :
    Wp (pulsing G W P) i (leaveChannel id) (fun _ _ _ => True) (fun _ _ _ => True) s d := by
  apply Wp.bind
  apply Wp.attempt
  apply wp_pulseless rfl
  · exact fun _ => Wp.pure _ trivial
  · intro e
    dsimp only
    split
    · exact Wp.pure _ trivial
    · exact Wp.raise _ trivial

/-- The next turn of the loop is ready where this one ends. -/
def Resumes (W : Wire) (q : SseKind) (b : Except Exc Streamed) (d : Option Pulse) : Prop :=
  ∀ q', nextPoll q b = some q' → q'.Ready W d

theorem wp_pulse_poll (hI : 0 ≤ W.sseKeepaliveInterval) (id : String) {t : Rat}
    (hd : Beat W t d) {s : Unit} :
    Wp (pulsing G W P) i (poll W id t) (fun out _ d => Resumes W (.poll id t) (.ok out) d)
      (fun e _ d => Resumes W (.poll id t) (.error e) d) s d := by
  apply Wp.bind
  apply Wp.attempt
  apply Wp.mono (wp_pulse_pollMessage hI id hd)
  · intro out s d hout
    have hleave (hn : nextPoll (.poll id t) (.ok out) = none) :
        Wp (pulsing G W P) i (do leaveChannel id; return out : Sse Text Streamed)
          (fun out _ d => Resumes W (.poll id t) (.ok out) d)
          (fun e _ d => Resumes W (.poll id t) (.error e) d) s d := by
      apply Wp.bind
      apply Wp.mono (wp_pulse_leaveChannel id)
      · exact fun _ _ _ _ => Wp.pure _ fun q' hq => nomatch hn.symm.trans hq
      · exact fun _ _ _ _ q' hq => nomatch hq
    cases out with
    | again now =>
      refine Wp.pure _ fun q' hq => ?_
      cases hq
      exact hout now rfl
    | notFound | empty | opened _ | ended | disconnected => exact hleave rfl
  · intro e s d _
    apply Wp.bind
    apply Wp.mono (wp_pulse_leaveChannel id)
    · exact fun _ _ _ _ => Wp.raise _ fun q' hq => nomatch hq
    · exact fun _ _ _ _ q' hq => nomatch hq

theorem wp_pulse_streamTask (id : String) {s : Unit} :
    Wp (pulsing G W P) i (streamTask id) (fun out _ d => Resumes W (.stream id) (.ok out) d)
      (fun e _ d => Resumes W (.stream id) (.error e) d) s none := by
  have hover {b : Except Exc Streamed} (hn : nextPoll (.stream id) b = none) :
      Resumes W (.stream id) b none := fun q' hq => nomatch hn.symm.trans hq
  apply Wp.bind
  apply wp_pulseless rfl
  · rintro (_ | raw)
    · exact Wp.pure _ (hover rfl)
    · dsimp only
      cases (modelValidateJson raw : Except String Task) with
      | error msg => exact Wp.raise _ (hover rfl)
      | ok task =>
        dsimp only
        split
        · exact Wp.pure _ (hover rfl)
        · apply Wp.bind
          apply wp_pulseless rfl
          · intro _
            apply Wp.bind
            apply wp_clock fun p hp => by cases hp
            intro now
            refine Wp.pure _ fun q' hq => ?_
            cases hq
            exact ⟨now, rfl, .inl rfl⟩
          · exact fun _ => hover rfl
  · exact fun _ => hover rfl

/-- A coroutine that is ready keeps its pulse regular up to its end. -/
theorem safe_ready (hI : 0 ≤ W.sseKeepaliveInterval) {q : SseKind} (hd : q.Ready W d) :
    Safe (pulsing G W P) i (Resumes W q) ((streams G W).body q) d := by
  cases q with
  | stream id =>
    obtain rfl := hd
    exact Wp.start (wp_pulse_streamTask id)
  | poll id t => exact Wp.start (wp_pulse_poll hI id hd)

theorem pulsing_sound (hI : 0 ≤ W.sseKeepaliveInterval) (h₀ : Hub B) :
    (pulsing G W P).Sound none (Resumes W) h₀ where
  start := ⟨fun _ => rfl, trivial⟩
  spawn := by
    rintro tr h ds i q h' ⟨hd, -⟩ - ⟨⟨id, rfl⟩, rfl⟩ -
    refine ⟨trivial, none, ⟨fun j => ?_, trivial⟩, safe_ready hI rfl⟩
    by_cases hj : j = i
    · rw [hj, Function.update_self]
      exact if_pos rfl
    · rw [Function.update_of_ne hj, ← hd j]
      exact if_neg (Ne.symm hj)
  exit := by
    rintro tr h ds i q b h' o ⟨hd, -⟩ hb ⟨rfl, rfl⟩ -
    refine ⟨trivial, ?_⟩
    cases hn : nextPoll q b with
    | none =>
      refine ⟨fun j => ?_, trivial⟩
      by_cases hj : j = i
      · rw [hj, Function.update_self]
        exact if_pos ⟨rfl, hn⟩
      · rw [Function.update_of_ne hj, ← hd j]
        exact if_neg fun he => hj he.1.symm
    | some q' =>
      refine ⟨ds i, ⟨fun j => ?_, trivial⟩, safe_ready hI (hb q' hn)⟩
      rw [Function.update_eq_self, ← hd j]
      exact if_neg fun he => by cases hn.symm.trans he.2
  env := by
    rintro tr h ds e h' ⟨hd, -⟩ - -
    exact ⟨trivial, hd, trivial⟩
  halt := fun _ _ _ _ _ _ _ => ⟨trivial, fun _ => rfl, trivial⟩

/-- While the turns of its loop are brisk, no client waits for a frame longer than the interval and
one turn, and none gets a keepalive before the interval is over. -/
theorem pulse_law {S : Setup Event} {b₀ : SysConfig Text Event}
    {tr : List (SseLabel Text (SysLabel Text Event))}
    {s : SseConfig Text (SysConfig Text Event)} (hI : 0 ≤ W.sseKeepaliveInterval)
    (hr : Run (server Text S W) (brisk W P) (.idle (Hub.start b₀)) tr s) : OnBeat W P tr := by
  obtain ⟨ds, -, hreg⟩ := (pulsing_sound hI _).inv hr
  exact hreg

end

instance [TaskJson Text] (W : Wire) (P : Rat) (tr : List (SseLabel Text L)) (h : Hub B)
    (l : SseLabel Text L) (h' : Hub B) : Decidable (brisk W P tr h l h') :=
  match l with
  | .cmd i .time (.ok now) =>
    inferInstanceAs (Decidable (∀ p ∈ pulseOf i tr, now ≤ p.read + P))
  | .cmd _ .getMessage (.ok (some msg)) =>
    inferInstanceAs (Decidable (msg.data = doneMessage ∨ (W.loads msg.data).isOk = true))
  | .cmd _ .time (.error _) | .cmd _ .getMessage (.ok none) | .cmd _ .getMessage (.error _)
  | .cmd _ (.get _) _ | .cmd _ (.subscribe _) _ | .cmd _ .sleep _ | .cmd _ .isDisconnected _
  | .cmd _ (.send _) _ | .cmd _ (.publish _ _) _ | .cmd _ (.unsubscribe _) _
  | .abort _ _ _ | .spawn _ _ | .exit _ _ _ | .env _ | .halt => isTrue trivial

/-- A step of a schedule, or stream `i` reads the clock. -/
def clockNext [TaskJson Text] {S : Setup Event} (D : Driver (system Text S) X) (W : Wire) :
    (Choice SseHint SseKind (SysLabel Text Event) ⊕ Choice X Kind Tick) ⊕ Nat × Rat →
      SseConfig Text (SysConfig Text Event) →
      Option (SseLabel Text (SysLabel Text Event) × SseConfig Text (SysConfig Text Event))
  | .inl y, s => serverNext D W y s
  | .inr (i, now), s =>
    match s.pool i with
    | some (q, .await .time k) => some (.cmd i .time (.ok now),
        ⟨s.world, Function.update s.pool i (some (q, k (.ok now)))⟩)
    | _ => none

theorem clockNext_sound [TaskJson Text] {S : Setup Event} (D : Driver (system Text S) X) {W : Wire}
    {y : (Choice SseHint SseKind (SysLabel Text Event) ⊕ Choice X Kind Tick) ⊕ Nat × Rat}
    {s s' : SseConfig Text (SysConfig Text Event)} {l : SseLabel Text (SysLabel Text Event)}
    (h : clockNext D W y s = some (l, s')) : (server Text S W).Step s l s' := by
  cases y with
  | inl y => exact serverNext_sound D h
  | inr o =>
    obtain ⟨i, now⟩ := o
    unfold clockNext at h
    dsimp only at h
    split at h
    · rename_i q k hp
      cases h
      exact .answer hp (.cmd ⟨⟨now, rfl⟩, rfl⟩)
    · cases h

def clockStepper [TaskJson Text] {S : Setup Event} (D : Driver (system Text S) X) (W : Wire) :
    Stepper (server Text S W)
      ((Choice SseHint SseKind (SysLabel Text Event) ⊕ Choice X Kind Tick) ⊕ Nat × Rat) where
  next := clockNext D W
  sound := clockNext_sound D

/-- The keepalives that stream `i` has been sent. -/
def keepalives (i : Nat) : List (SseLabel Text L) → Nat
  | .cmd j (.send .keepalive) _ :: tr => if j = i then keepalives i tr + 1 else keepalives i tr
  | _ :: tr => keepalives i tr
  | [] => 0

abbrev ClockSchedule (Event : Type) : Type :=
  List ((Choice SseHint SseKind (SysLabel Task Event) ⊕ Choice (Hint Event) Kind Tick) ⊕ Nat × Rat)

/-- The next command of stream `i`, its look at the clock at `now`, and `n` more commands. -/
def idleTurn (i : Nat) (now : Rat) (n : Nat) : ClockSchedule Event :=
  (attend i 1).map Sum.inl ++ [.inr (i, now)] ++ (attend i n).map Sum.inl

/-- A stream of a quiet task that subscribes at 0 seconds, and is sent a keepalive at 20. -/
def idleStream : ClockSchedule String :=
  (work taskToStream ++ look 0 "u").map Sum.inl ++ idleTurn 0 0 0 ++ [.inl (.inl (.exit 0))] ++
    idleTurn 0 10 1 ++ [.inl (.inl (.exit 0))] ++ idleTurn 0 20 2

theorem pulse_law_quiet : ∃ tr s,
    Run (server Task demo demoWire) (brisk demoWire 10) (.idle (Hub.start (.idle .init))) tr s ∧
    keepalives 0 tr = 1 ∧ OnBeat demoWire 10 tr := by
  obtain ⟨tr, s, hr, ho⟩ := (clockStepper demoDriver demoWire).observe (brisk demoWire 10)
    (.idle (Hub.start (.idle .init))) idleStream (fun o => some (keepalives 0 o.1))
    (show _ = some 1 by decide +kernel)
  exact ⟨tr, s, hr, Option.some.inj ho, pulse_law (by decide) hr⟩

end Orchestrator
