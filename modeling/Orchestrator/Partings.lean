import Orchestrator.Beside
import Orchestrator.Closings
import Orchestrator.Deafness
import Orchestrator.Fates

namespace Orchestrator
open Concurrency Async
set_option autoImplicit true

def SseKind.taskId : SseKind → String
  | .stream id | .poll id _ => id

/-- The server ends a stream. A cancellation is a client that leaves. -/
def endedByServer : SseKind → Except Exc Streamed → Bool
  | .stream _, .ok .empty => true
  | .stream _, .error exc => exc.cls = .other
  | .poll .., .ok .ended => true
  | .poll .., .error exc => exc.cls ≠ .cancelled
  | _, _ => false

/-- The last frame that process `i` has sent for its request. -/
def lastFrame (i : Nat) : List (SseLabel Text L) → Option Frame
  | [] => none
  | .cmd j (.send frame) _ :: tr => if j = i then some frame else lastFrame i tr
  | .spawn j _ :: tr => if j = i then none else lastFrame i tr
  | _ :: tr => lastFrame i tr

/-- A stream that the server ends has sent a terminal frame last, or its task is finished. -/
def PartingLaw [TaskJson Text] (G : Source Text B L) (tr : List (SseLabel Text L))
    (s : SseConfig Text B) : Prop :=
  ∀ i q b, s.pool i = some (q, .ret b) → endedByServer q b = true →
    (∃ frame, lastFrame i tr = some (.event frame) ∧ isTerminalEvent frame.event = true) ∨
      G.terminal s.world.base q.taskId = true

/-- An end that is right for a task that is finished or not. -/
def Ending.Fair (finished : Bool) : Ending → Prop
  | .sentinel | .empty => finished = true
  | .raised exc => exc.cls = .cancelled
  | _ => True

instance (finished : Bool) (ending : Ending) : Decidable (ending.Fair finished) :=
  match ending with
  | .sentinel | .empty => inferInstanceAs (Decidable (finished = true))
  | .raised exc => inferInstanceAs (Decidable (exc.cls = .cancelled))
  | .notFound | .terminal _ | .disconnected => isTrue trivial

namespace Phase

/-- The task of a stream that has subscribed. -/
def followed : Phase → Option String
  | .ended id _ => some id
  | d => d.subscribed

/-- The task of a request that has been answered, with a stream or without one. -/
def answered : Phase → Option String
  | .refused id _ => some id
  | d => d.followed

/-- The task whose record is to be that of a finished one when the stream ends. -/
def relies (W : Wire) (q : List String) (d : Phase) : Option String :=
  match d.fate W q with
  | some .sentinel | some .empty => d.answered
  | _ => none

/-- The terminal frame that a stream has sent. -/
def parting : Phase → Option SseFrame
  | .closing _ frame | .leaving _ (.terminal frame) | .ended _ (.terminal frame) => some frame
  | _ => none

end Phase

section
variable [TaskJson Text] (G : Source Text B L) (W : Wire)

/-- The messages that come in with a step. -/
def arrivals (i : Nat) (h h' : Hub B) : List String := (h'.queue i).drop (h.queue i).length

/-- A sentinel that reaches a stream which is not going to end anyway finds the record of a finished
task, and the record stays so until the stream has ended. Every event can be framed, and no
connection of a stream fails. -/
def settled : StepFilter SseCmd (SseCmd.Answer Text) (Except Exc Streamed) (Hub B) SseKind L :=
  fun tr h l h' =>
    (∀ i, ∀ id ∈ (phaseOf W i tr).subscribed, (phaseOf W i tr).fate W (h.queue i) = none →
      ∀ data ∈ arrivals i h h', ∀ ending ∈ Message.ending W ⟨"message", data⟩,
        ending.Fair (G.terminal h'.base id)) ∧
    (∀ i, ∀ id ∈ (phaseOf W i tr).relies W (h.queue i),
      G.terminal h.base id = true → G.terminal h'.base id = true) ∧
    match l with
    | .abort _ _ (.error exc) => exc.cls = .cancelled
    | _ => True

/-- Every stream is going to end as it should. -/
structure Parting (tr : List (SseLabel Text L)) (h : Hub B) : Prop where
  refused : ∀ i id ending, phaseOf W i tr = .refused id ending →
    (ending = .empty → G.terminal h.base id = true) ∧
      ∀ exc, ending = .raised exc → exc.cls ≠ .other
  going : ∀ i id, (phaseOf W i tr).followed = some id →
    ∀ ending ∈ (phaseOf W i tr).fate W (h.queue i), ending.Fair (G.terminal h.base id)
  shown : ∀ i frame, (phaseOf W i tr).parting = some frame →
    lastFrame i tr = some (.event frame) ∧ isTerminalEvent frame.event = true

end

section
variable [TaskJson Text] {G : Source Text B L} {W : Wire} {i : Nat} {c : SseCmd}
  {r : c.Answer Text} {h h' : Hub B} {l : SseLabel Text L} {d : Phase} {id : String}
  {tr : List (SseLabel Text L)}

/-- A request is refused because of its record, or because it cannot subscribe. -/
theorem Phase.after_refused {ending : Ending} (ha : (streams G W).Answer i c r h h' l)
    (hc : d.sends c) (hd : d.after W c r = .refused id ending) :
    (ending = .empty → G.terminal h.base id = true) ∧
      ∀ exc, ending = .raised exc → exc.cls = .other →
        ∃ e, l = .abort i c (.error e) ∧ e.cls = .other := by
  have hp : Phase.Passage d c r (d.after W c r) := Phase.passage hc
  generalize d.after W c r = d' at hp hd
  cases hp with
  | ask id' r =>
    cases ha with
    | cmd hx =>
      obtain ⟨rfl, rfl⟩ := hx
      obtain ⟨rfl, (rfl | ⟨msg, rfl⟩) | ⟨rfl, task, htask, hterm⟩⟩ := Phase.asked_refused hd
      · exact ⟨fun he => (by cases he), fun exc he => (by cases he)⟩
      · refine ⟨fun he => (by cases he), fun exc he hcls => ?_⟩
        cases he
        cases hcls
      · refine ⟨fun _ => ?_, fun exc he => (by cases he)⟩
        rw [Source.terminal, htask]
        exact hterm
    | abort hx =>
      obtain ⟨-, e, rfl, -⟩ := hx
      cases hd
      refine ⟨fun he => (by cases he), fun exc he hcls => ⟨e, rfl, ?_⟩⟩
      cases he
      exact hcls
  | refuse id' e =>
    cases hd
    refine ⟨fun he => (by cases he), fun exc he hcls => ?_⟩
    cases he
    cases ha with
    | cmd hx => cases hx.1
    | abort _ => exact ⟨e, rfl, hcls⟩
  | hear _ _ hd' _ =>
    subst hd
    cases hd'
  | subscribe _ | leave _ _ _ _ | part _ _ | close _ _ | fail _ _ _ | unsubscribe _ _ _ => cases hd

theorem Phase.followed_of_subscribed (hd : d.subscribed = some id) : d.followed = some id := by
  cases d with
  | ended _ _ => cases hd
  | _ => exact hd

theorem Phase.followed_cases (hd : d.followed = some id) :
    d.subscribed = some id ∨ ∃ ending, d = .ended id ending := by
  cases d with
  | ended id' ending =>
    obtain rfl := Option.some.inj hd
    exact .inr ⟨ending, rfl⟩
  | _ => exact .inl hd

theorem Phase.answered_of_followed (hd : d.followed = some id) : d.answered = some id := by
  cases d with
  | refused _ _ => cases hd
  | _ => exact hd

/-- A stream that has subscribed was subscribed before, or has just got its subscription. -/
theorem Phase.after_followed (hc : d.sends c) (hd : (d.after W c r).followed = some id) :
    d.subscribed = some id ∨ d.after W c r = .listening id ∧ d = .opening id ∧
      c = .subscribe (channel id) ∧ ∃ a, r = .ok a := by
  have hp : Phase.Passage d c r (d.after W c r) := Phase.passage hc
  generalize d.after W c r = d' at hp hd
  cases hp with
  | ask id' r =>
    rcases Phase.asked_cases id' r with he | ⟨ending, he⟩ <;> rw [he] at hd <;> cases hd
  | subscribe id' =>
    obtain rfl := Option.some.inj hd
    exact .inr ⟨rfl, rfl, rfl, _, rfl⟩
  | refuse id' e => cases hd
  | hear _ hd₁ hd₂ hc =>
    rw [followed_of_subscribed (subscribed_of_hears hd₂)] at hd
    obtain rfl := Option.some.inj hd
    exact .inl (subscribed_of_hears hd₁)
  | leave _ hd₁ _ _ =>
    obtain rfl := Option.some.inj hd
    exact .inl (subscribed_of_hears hd₁)
  | part id' ht | close id' f | fail id' f e | unsubscribe id' _ he => exact .inl hd

theorem Phase.parting_of_hears (hd : d.hears = some id) : d.parting = none := by
  cases d with
  | listening _ | holding _ _ | showing _ _ | framing _ _ => rfl
  | _ => cases hd

/-- The terminal frame of a stream was sent before, or is sent just now. -/
theorem Phase.after_parting {f : SseFrame} (hc : d.sends c)
    (hd : (d.after W c r).parting = some f) :
    d.parting = some f ∧ (∀ f', c ≠ .send f') ∨
      isTerminalEvent f.event = true ∧ c = .send (.event f) ∧ ∃ a, r = .ok a := by
  have hp : Phase.Passage d c r (d.after W c r) := Phase.passage hc
  generalize d.after W c r = d' at hp hd
  cases hp with
  | ask id' r =>
    rcases Phase.asked_cases id' r with he | ⟨ending, he⟩ <;> rw [he] at hd <;> cases hd
  | subscribe id' | refuse id' e | fail id' f' e => cases hd
  | hear _ hd₁ hd₂ hc =>
    rw [parting_of_hears hd₂] at hd
    cases hd
  | leave _ hd₁ he hc =>
    rename_i ending
    cases ending with
    | terminal f' => exact absurd rfl (he f')
    | _ => cases hd
  | part id' ht =>
    obtain rfl := Option.some.inj hd
    exact .inr ⟨ht, rfl, _, rfl⟩
  | close id' f' => exact .inl ⟨hd, nofun⟩
  | unsubscribe id' r he =>
    rename_i ending ending'
    left
    obtain rfl | ⟨e, rfl, rfl⟩ := he
    · cases ending' <;> exact ⟨hd, nofun⟩
    · cases hd

theorem Ending.Fair.mono {finished finished' : Bool} {ending : Ending} (hf : ending.Fair finished)
    (h : ending = .sentinel ∨ ending = .empty → finished = true → finished' = true) :
    ending.Fair finished' := by
  cases ending with
  | sentinel => exact h (.inl rfl) hf
  | empty => exact h (.inr rfl) hf
  | raised _ => exact hf
  | notFound | terminal _ | disconnected => trivial

omit [TaskJson Text] in
theorem sseExec_ok (hx : sseExec G i c r h h') : ∃ a, r = .ok a := by
  cases c with
  | getMessage =>
    obtain ⟨rfl, -⟩ | ⟨_, _, _, -, rfl, -⟩ := hx
    · exact ⟨_, rfl⟩
    · exact ⟨_, rfl⟩
  | time | isDisconnected => exact hx.1
  | get _ | subscribe _ | sleep | send _ | publish _ _ | unsubscribe _ => exact ⟨_, hx.1⟩

/-- A command that raises is cut short by a client that leaves. -/
theorem cancelled_of_settled {e : Exc} (ha : (streams G W).Answer i c r h h' l)
    (hok : settled G W tr h l h') (hr : r = .error e) : e.cls = .cancelled := by
  subst hr
  cases ha with
  | cmd hx =>
    obtain ⟨a, he⟩ := sseExec_ok hx
    cases he
  | abort _ => exact hok.2.2

theorem lastFrame_other (ha : (streams G W).Answer i c r h h' l) {j : Nat} (hj : j ≠ i) :
    lastFrame j (l :: tr) = lastFrame j tr := by
  cases ha with
  | cmd _ =>
    cases c with
    | send frame => exact if_neg (Ne.symm hj)
    | _ => rfl
  | abort _ => rfl

theorem lastFrame_quiet (ha : (streams G W).Answer i c r h h' l) (hc : ∀ f, c ≠ .send f) (j : Nat) :
    lastFrame j (l :: tr) = lastFrame j tr := by
  cases ha with
  | cmd _ =>
    cases c with
    | send frame => exact absurd rfl (hc frame)
    | _ => rfl
  | abort _ => rfl

omit [TaskJson Text] in
theorem arrivals_deliver {j : Nat} {ch : String} {q : List String}
    {messages : List (String × String)} (hq : h.inbox j = some (ch, q))
    (hin : h'.inbox j = (h.deliver messages).inbox j) :
    arrivals j h h' = (messages.filter (·.1 = ch)).map (·.2) := by
  rw [arrivals, Hub.queue_eq hq, Hub.queue, hin, Hub.deliver_inbox, hq, Option.map_some,
    Option.elim_some, List.drop_left]

/-- What comes in for a stream of another process, or from the source, is fair. -/
theorem Parting.deliver {j : Nat} {messages : List (String × String)} (hp : Parting G W tr h)
    (ht : Tuned W tr h) (hok : settled G W tr h l h')
    (hin : h'.inbox j = (h.deliver messages).inbox j)
    (hd : (phaseOf W j tr).followed = some id) {ending : Ending}
    (he : (phaseOf W j tr).fate W (h'.queue j) = some ending) :
    ending.Fair (G.terminal h'.base id) := by
  have hold (hold : (phaseOf W j tr).fate W (h.queue j) = some ending) :
      ending.Fair (G.terminal h'.base id) := by
    apply (hp.going j id hd ending hold).mono
    intro hend hfin
    apply hok.2.1 j id _ hfin
    rw [Phase.relies, hold]
    rcases hend with rfl | rfl <;> exact Phase.answered_of_followed hd
  rcases Phase.followed_cases hd with hsub | ⟨ending', hd'⟩
  · obtain ⟨q, hq⟩ := ht j id hsub
    rw [Phase.fate_deliver W hsub hq hin] at he
    cases hf : (phaseOf W j tr).fate W (h.queue j) with
    | some ending' =>
      rw [hf] at he
      exact hold (hf.trans he)
    | none =>
      rw [hf, Option.none_or] at he
      obtain ⟨data, hdata, hm⟩ := List.exists_of_findSome?_eq_some he
      apply hok.1 j id hsub hf data _ ending hm
      rwa [arrivals_deliver hq hin]
  · apply hold
    rw [hd'] at he ⊢
    exact he

theorem Parting.answer (hp : Parting G W tr h) (ht : Tuned W tr h)
    (ha : (streams G W).Answer i c r h h' l) (hok : settled G W tr h l h')
    (hc : (phaseOf W i tr).sends c) : Parting G W (l :: tr) h' := by
  have hb : h'.base = h.base := sse_answer_base ha
  constructor
  · intro j id ending hd
    by_cases hj : j = i
    · subst hj
      rw [phaseOf_own ha] at hd
      obtain ⟨hempty, hraised⟩ := Phase.after_refused ha hc hd
      rw [hb]
      refine ⟨hempty, fun exc he hcls => ?_⟩
      obtain ⟨e, rfl, hother⟩ := hraised exc he hcls
      cases hok.2.2.symm.trans hother
    · rw [phaseOf_other ha hj] at hd
      rw [hb]
      exact hp.refused j id ending hd
  · intro j id hd ending he
    by_cases hj : j = i
    · subst hj
      rw [phaseOf_own ha] at hd he
      rcases Phase.after_followed hc hd with hsub | ⟨hlisten, -, rfl, a, rfl⟩
      · obtain ⟨q, hq⟩ := ht j id hsub
        rcases Phase.fate_own ha hc hsub hq with hf | ⟨-, hf⟩ | ⟨e, rfl, hf⟩
        · rw [hb]
          rw [hf, ← Hub.queue_eq hq] at he
          exact hp.going j id (Phase.followed_of_subscribed hsub) ending he
        · rw [hf] at he
          obtain rfl := Option.some.inj he
          trivial
        · rw [hf] at he
          obtain rfl := Option.some.inj he
          exact cancelled_of_settled ha hok rfl
      · cases ha with
        | cmd hx =>
          obtain ⟨-, rfl⟩ := hx
          rw [hlisten, Hub.queue_eq (Function.update_self ..)] at he
          cases he
        | abort hx =>
          obtain ⟨-, e, he, -⟩ := hx
          cases he
    · rw [phaseOf_other ha hj] at hd he
      obtain ⟨messages, hin, -⟩ := sse_answer_inbox ha (Ne.symm hj)
      exact hp.deliver ht hok hin hd he
  · intro j f hd
    by_cases hj : j = i
    · subst hj
      rw [phaseOf_own ha] at hd
      rcases Phase.after_parting hc hd with ⟨hd, hs⟩ | ⟨hterm, rfl, a, rfl⟩
      · rw [lastFrame_quiet ha hs]
        exact hp.shown j f hd
      · cases ha with
        | cmd hx => exact ⟨if_pos rfl, hterm⟩
        | abort hx =>
          obtain ⟨-, e, he, -⟩ := hx
          cases he
    · rw [phaseOf_other ha hj] at hd
      rw [lastFrame_other ha hj]
      exact hp.shown j f hd

theorem Parting.env (hp : Parting G W tr h) (ht : Tuned W tr h) {e : L}
    (he : sourceStep G e h h') (hok : settled G W tr h (.env e) h') :
    Parting G W (.env e :: tr) h' := by
  obtain ⟨b, messages, -, -, rfl⟩ := he
  constructor
  · intro j id ending hd
    obtain ⟨hempty, hraised⟩ := hp.refused j id ending hd
    refine ⟨fun he => hok.2.1 j id ?_ (hempty he), hraised⟩
    have hd : phaseOf W j tr = .refused id ending := hd
    rw [hd, he]
    exact rfl
  · exact fun j id hd ending he => hp.deliver ht hok rfl hd he
  · exact hp.shown

variable (G W) in
theorem parting_upheld (h₀ : Hub B) : Upheld G W (settled G W) h₀ (Parting G W) where
  start := ⟨nofun, nofun, nofun⟩
  answer _ _ _ _ _ _ _ hp ht ha hok hc := hp.answer ht ha hok hc
  spawn tr h i id hp := by
    constructor
    · intro j id' ending hd
      rw [phaseOf_spawn] at hd
      split at hd
      · cases hd
      · exact hp.refused j id' ending hd
    · intro j id' hd
      rw [phaseOf_spawn] at hd ⊢
      split at hd
      · cases hd
      · rename_i hj
        rw [if_neg hj]
        exact hp.going j id' hd
    · intro j f hd
      rw [phaseOf_spawn] at hd
      split at hd
      · cases hd
      · rename_i hj
        rw [lastFrame, if_neg hj]
        exact hp.shown j f hd
  exit tr h i q b hp hb := by
    constructor
    · intro j id ending hd
      rcases phaseOf_exit hb j with he | ⟨-, he⟩
      · exact hp.refused j id ending (he.symm.trans hd)
      · cases he.symm.trans hd
    · intro j id hd
      rcases phaseOf_exit hb j with he | ⟨-, he⟩
      · rw [he] at hd ⊢
        exact hp.going j id hd
      · rw [he] at hd
        cases hd
    · intro j f hd
      rcases phaseOf_exit hb j with he | ⟨-, he⟩
      · rw [he] at hd
        exact hp.shown j f hd
      · rw [he] at hd
        cases hd
  env _ _ _ _ hp ht he hok := hp.env ht he hok
  halt _ _ _ := ⟨nofun, nofun, nofun⟩

theorem parting_of_settled {b₀ : B} {s : SseConfig Text B}
    (hr : Run (streams G W) (settled G W) (.idle (Hub.start b₀)) tr s) : PartingLaw G tr s := by
  obtain ⟨-, hp⟩ := (parting_upheld G W _).holds hr
  intro i q b hpool hend
  have hret := returns_of_run hr hpool
  cases hd : phaseOf W i tr with
  | listening id =>
    rw [hd] at hret
    obtain ⟨t, ⟨rfl, rfl⟩ | ⟨last, rfl, rfl⟩⟩ := hret <;> cases hend
  | refused id ending =>
    rw [hd] at hret
    obtain ⟨rfl, rfl⟩ := hret
    obtain ⟨hempty, hraised⟩ := hp.refused i id ending hd
    cases ending with
    | empty => exact .inr (hempty rfl)
    | raised exc => exact absurd (of_decide_eq_true hend) (hraised exc rfl)
    | notFound | sentinel | terminal _ | disconnected => cases hend
  | ended id ending =>
    rw [hd] at hret
    obtain ⟨⟨last, rfl⟩, rfl⟩ := hret
    have hgoing := hp.going i id (by rw [hd]; rfl) ending (by rw [hd]; rfl)
    cases ending with
    | sentinel => exact .inr hgoing
    | terminal f => exact .inl ⟨f, hp.shown i f (by rw [hd]; rfl)⟩
    | raised exc => exact absurd hgoing (of_decide_eq_true hend)
    | notFound | empty | disconnected => cases hend
  | _ =>
    rw [hd] at hret
    exact hret.elim

end

/-- No exception comes of the message. -/
def frames (W : Wire) (data : String) : Bool :=
  match Message.ending W ⟨"message", data⟩ with
  | some (.raised _) => false
  | _ => true

/-- A message that brings a sentinel brings nothing else, and no other message brings one. -/
theorem Ending.fair_of_frames {W : Wire} {data : String} {ending : Ending} {finished : Bool}
    (hf : frames W data = true) (hm : Message.ending W ⟨"message", data⟩ = some ending)
    (hdone : data = doneMessage → finished = true) : ending.Fair finished := by
  rw [frames, hm] at hf
  unfold Message.ending at hm
  rw [if_neg (not_not.2 rfl)] at hm
  split at hm
  · rename_i hd
    obtain rfl := Option.some.inj hm
    exact hdone hd
  · cases ending with
    | sentinel | empty =>
      unfold EventProxy.ending SseFrame.ending at hm
      repeat' split at hm
      all_goals cases hm
    | raised exc => cases hf
    | notFound | terminal _ | disconnected => trivial

section
variable [TaskJson Text] (S : Setup Event) (W : Wire)

/-- What may reach a stream of a task with a step of the server: an event that can be framed, the
sentinel of a worker that is not in the handler of `RetriableError` or `CancelledError`, and, once
the task is finished, that of a stream which has shown a terminal event. -/
def Reaches (tr : List (SseLabel Text (SysLabel Text Event))) (h : Hub (SysConfig Text Event))
    (id : String) (l : SseLabel Text (SysLabel Text Event)) (data : String) : Prop :=
  frames W data = true ∧
    match l with
    | .env (.cmd i _ _) | .env (.abort i _ _) => hasty.read i (sourceTrace tr) = false
    | .env _ => data ≠ doneMessage
    | _ => (tasks Text S).terminal h.base id = true

/-- The streams that are not going to end anyway are reached by such messages alone. No record of a
finished task is written over by one of a task that is not, and no connection of a stream fails. -/
def orderly : StepFilter SseCmd (SseCmd.Answer Text) (Except Exc Streamed)
    (Hub (SysConfig Text Event)) SseKind (SysLabel Text Event) :=
  fun tr h l h' =>
    (∀ i, ∀ id ∈ (phaseOf W i tr).subscribed, (phaseOf W i tr).fate W (h.queue i) = none →
      ∀ data ∈ arrivals i h h', Reaches S W tr h id l data) ∧
    match l with
    | .abort _ _ (.error exc) => exc.cls = .cancelled
    | .env e => upholds (sourceTrace tr) h.base.world e h'.base.world
    | _ => True

end

section
variable [TaskJson Text] {S : Setup Event} {W : Wire} {w₀ : World Text Event}
  {tr : List (SseLabel Text (SysLabel Text Event))}
  {s s' : SseConfig Text (SysConfig Text Event)} {id data : String}

/-- The steps of the workers in an orderly run, with what comes of their closes. -/
theorem closedLate_of_orderly
    (hr : Run (server Text S W) (orderly S W) (.idle (Hub.start (.idle w₀))) tr s) :
    ClosedLate (sourceTrace tr) s.world.base.world :=
  closedLate_of_run (source_run (fun _ _ _ _ hok => hok.2) hr)

/-- A sentinel that a worker publishes late reaches the streams of a finished task. -/
theorem finished_of_publishes {l : SysLabel Text Event} {trw : List (SysLabel Text Event)}
    {w : World Text Event} {messages : List (String × String)} (hp : Publishes S l messages)
    (hm : (channel id, data) ∈ messages) (hl : ClosedLate (l :: trw) w)
    (hh : match l with
      | .cmd i _ _ | .abort i _ _ => hasty.read i trw = false
      | _ => data ≠ doneMessage) : data = doneMessage → w.finished id = true := by
  intro hd
  cases hp with
  | nothing => cases hm
  | command i ch data' r | cut i ch data' r =>
    obtain ⟨rfl, -⟩ := Prod.mk.inj (List.mem_singleton.1 hm)
    obtain ⟨id', hid, hf⟩ := hl hh
    rwa [channel_inj.1 hid]
  | event n ch he => exact absurd hd hh

theorem terminal_of_arrival
    (hr : Run (server Text S W) (orderly S W) (.idle (Hub.start (.idle w₀))) tr s)
    (hs : (server Text S W).Step s l s') (hok : orderly S W tr s.world l s'.world)
    (hd : (phaseOf W i tr).subscribed = some id) (hm : data ∈ arrivals i s.world s'.world)
    (hreach : Reaches S W tr s.world id l data) :
    data = doneMessage → (tasks Text S).terminal s'.world.base id = true := by
  intro hdone
  have hlate := closedLate_of_orderly (.cons hr hs hok)
  cases hs with
  | answer _ ha =>
    rw [sse_answer_base ha]
    cases ha <;> exact hreach.2
  | spawn _ hq =>
    obtain ⟨-, rfl⟩ := hq
    exact hreach.2
  | exit _ he =>
    obtain ⟨rfl, -⟩ := he
    exact hreach.2
  | env he =>
    rename_i e h'
    obtain ⟨b, messages, hstep, hpub, hh⟩ := he
    obtain ⟨messages', hp, hpub'⟩ := step_published hstep
    obtain rfl := List.append_cancel_left (hpub.symm.trans hpub')
    obtain ⟨q, hq⟩ := tuned_of_run hr i id hd
    have hin : h'.inbox i = (s.world.deliver messages).inbox i := by rw [hh]
    rw [arrivals_deliver hq hin] at hm
    obtain ⟨⟨ch, data'⟩, hmem, rfl⟩ := List.mem_map.1 hm
    obtain ⟨hmem, hch⟩ := List.mem_filter.1 hmem
    obtain rfl : ch = channel id := of_decide_eq_true hch
    apply finished_of_publishes hp hmem hlate _ hdone
    cases e <;> exact hreach.2
  | halt hh =>
    obtain rfl := hh
    exact hreach.2

/-- A task that is finished stays so. -/
theorem terminal_step (hs : (server Text S W).Step s l s')
    (hok : orderly S W tr s.world l s'.world)
    (hf : (tasks Text S).terminal s.world.base id = true) :
    (tasks Text S).terminal s'.world.base id = true := by
  cases hs with
  | answer _ ha => rwa [sse_answer_base ha]
  | spawn _ hq =>
    obtain ⟨-, rfl⟩ := hq
    exact hf
  | exit _ he =>
    obtain ⟨rfl, -⟩ := he
    exact hf
  | env he =>
    have hup := hok.2
    obtain ⟨b, messages, hstep, -, rfl⟩ := he
    exact finished_step hstep hup hf
  | halt hh =>
    obtain rfl := hh
    exact hf

theorem settled_of_orderly
    (hr : Run (server Text S W) (orderly S W) (.idle (Hub.start (.idle w₀))) tr s)
    (hs : (server Text S W).Step s l s') (hok : orderly S W tr s.world l s'.world) :
    settled (tasks Text S) W tr s.world l s'.world := by
  refine ⟨fun i id hd hfate data hm ending he => ?_, fun i id _ => terminal_step hs hok, ?_⟩
  · have hreach := hok.1 i id hd hfate data hm
    exact Ending.fair_of_frames hreach.1 he (terminal_of_arrival hr hs hok hd hm hreach)
  · cases l with
    | abort i c r =>
      cases r with
      | ok a => trivial
      | error exc => exact hok.2
    | _ => trivial

/-- Whatever the attempts of the tasks and however many streams there are. -/
theorem parting_law
    (hr : Run (server Text S W) (orderly S W) (.idle (Hub.start (.idle w₀))) tr s) :
    PartingLaw (tasks Text S) tr s :=
  parting_of_settled (hr.refine fun _ _ _ _ => settled_of_orderly)

theorem orderly_iff {h h' : Hub (SysConfig Text Event)}
    {l : SseLabel Text (SysLabel Text Event)} : orderly S W tr h l h' ↔
      (∀ i ∈ Monitor.actors tr, ∀ id ∈ (phaseOf W i tr).subscribed,
        (phaseOf W i tr).fate W (h.queue i) = none →
          ∀ data ∈ arrivals i h h', Reaches S W tr h id l data) ∧
      match l with
      | .abort _ _ (.error exc) => exc.cls = .cancelled
      | .env e => upholds (sourceTrace tr) h.base.world e h'.base.world
      | _ => True := by
  refine ⟨fun hok => ⟨fun i _ => hok.1 i, hok.2⟩, fun hok => ⟨fun i => ?_, hok.2⟩⟩
  by_cases hi : i ∈ Monitor.actors tr
  · exact hok.1 i hi
  · rw [phaseOf_of_not_mem hi]
    exact nofun

end

instance [TaskJson Text] (S : Setup Event) (W : Wire)
    (tr : List (SseLabel Text (SysLabel Text Event))) (h : Hub (SysConfig Text Event))
    (id : String) (l : SseLabel Text (SysLabel Text Event)) (data : String) :
    Decidable (Reaches S W tr h id l data) :=
  match l with
  | .env (.cmd ..) | .env (.abort ..) | .env (.spawn ..) | .env (.exit ..) | .env (.env _)
  | .env .halt | .cmd .. | .abort .. | .spawn .. | .exit .. | .halt =>
    inferInstanceAs (Decidable (_ ∧ _))

instance [TaskJson Text] (S : Setup Event) (W : Wire)
    (tr : List (SseLabel Text (SysLabel Text Event))) (h : Hub (SysConfig Text Event))
    (l : SseLabel Text (SysLabel Text Event)) (h' : Hub (SysConfig Text Event)) :
    Decidable (orderly S W tr h l h') :=
  have (o : Option Ending) : Decidable (o = none) := decidable_of_iff _ Option.isNone_iff_eq_none
  have : Decidable (match l with
      | .abort _ _ (.error exc) => exc.cls = .cancelled
      | .env e => upholds (sourceTrace tr) h.base.world e h'.base.world
      | _ => True) :=
    match l with
    | .abort _ _ (.error exc) => inferInstanceAs (Decidable (exc.cls = .cancelled))
    | .env e => inferInstanceAs (Decidable (∀ id ∈ overwritten e, _))
    | .abort _ _ (.ok _) | .cmd .. | .spawn .. | .exit .. | .halt => isTrue trivial
  decidable_of_iff _ orderly_iff.symm

/-- The last three commands of stream `i`, when it finds a sentinel. -/
def depart (i : Nat) : ServerSchedule Event := attend i 3

/-- A stream that is closed after a success. -/
def closedAfter : ServerSchedule String :=
  work taskToStream ++ look 0 "u" ++ listen 0 ++ work (go 2 5) ++ depart 0

/-- A stream that is closed because the attempt is retried. -/
def closedBefore : ServerSchedule String :=
  work (start ++ create 1 ++ [.spawn 2 .worker] ++ turnToError 2 0) ++ look 0 "u" ++ listen 0 ++
    work (go 2 2) ++ depart 0

theorem parting_law_closedAfter : ∃ tr s,
    Run (server Task demo demoWire) (orderly demo demoWire) (.idle (Hub.start (.idle .init))) tr s ∧
    streamed 0 s = some .ended ∧ PartingLaw (tasks Task demo) tr s := by
  obtain ⟨tr, s, hr, ho⟩ := (serverStepper demoDriver demoWire).observe
    (orderly demo demoWire) (.idle (Hub.start (.idle .init))) closedAfter
    (fun o => streamed 0 o.2) (show _ = some Streamed.ended by decide)
  exact ⟨tr, s, hr, ho, parting_law hr⟩

theorem not_parting_law : ¬∀ tr s,
    Run (server Task demo demoWire) (fun _ _ _ _ => True) (.idle (Hub.start (.idle .init))) tr s →
      PartingLaw (tasks Task demo) tr s := by
  intro h
  obtain ⟨tr, s, hr, ho⟩ := (serverStepper demoDriver demoWire).observe
    (fun _ _ _ _ => True) (.idle (Hub.start (.idle .init))) closedBefore
    (fun o => some (streamed 0 o.2, (o.2.pool 0).map fun p => p.1.taskId, lastFrame 0 o.1,
      (tasks Task demo).terminal o.2.world.base "u"))
    (show _ = some (some .ended, some "u", none, false) by decide)
  obtain ⟨hstreamed, hrest⟩ := Prod.mk.inj (Option.some.inj ho)
  obtain ⟨hid, hlast⟩ := Prod.mk.inj hrest
  obtain ⟨hframe, hterm⟩ := Prod.mk.inj hlast
  obtain ⟨id, now, hp⟩ := streamed_eq_some hstreamed
  rw [hp] at hid
  obtain rfl : id = "u" := Option.some.inj hid
  rcases h tr s hr 0 _ _ hp rfl with ⟨f, hf, -⟩ | ht
  · cases hframe.symm.trans hf
  · cases hterm.symm.trans ht

end Orchestrator
