import Orchestrator.Phases
import Orchestrator.Concurrency.Monitor

namespace Orchestrator
open Concurrency Async
set_option autoImplicit true

section
variable [TaskJson Text] (W : Wire)

/-- The phase in which the labels of a run leave process `i`. -/
def phaseOf (i : Nat) : List (SseLabel Text L) → Phase
  | [] => .gone
  | .cmd j c r :: tr | .abort j c r :: tr =>
    if j = i then (phaseOf i tr).after W c r else phaseOf i tr
  | .spawn j q :: tr => if j = i then q.entry else phaseOf i tr
  | .exit j q b :: tr =>
    if j = i then (nextPoll q b).elim .gone SseKind.entry else phaseOf i tr
  | .env _ :: tr => phaseOf i tr
  | .halt :: _ => .gone

/-- The latest label is one that the phase of its process allows. -/
def Obeys : List (SseLabel Text L) → Prop
  | .cmd i c _ :: tr | .abort i c _ :: tr => (phaseOf W i tr).sends c
  | .spawn i _ :: tr => phaseOf W i tr = .gone
  | .exit i q b :: tr => (phaseOf W i tr).Returns q b
  | _ => True

end

/-- The messages that a subscription still has to deliver. -/
def Hub.queue (h : Hub B) (i : Nat) : List String := (h.inbox i).elim [] Prod.snd

theorem Hub.queue_eq {h : Hub B} {i : Nat} (hq : h.inbox i = some (ch, q)) : h.queue i = q := by
  rw [queue, hq, Option.elim_some]

theorem Hub.queue_none {h : Hub B} {i : Nat} (hq : h.inbox i = none) : h.queue i = [] := by
  rw [Hub.queue, hq, Option.elim_none]

/-- A stream that is on its way has a subscription to the channel of its task. -/
def Tuned [TaskJson Text] (W : Wire) (tr : List (SseLabel Text L)) (h : Hub B) : Prop :=
  ∀ i id, (phaseOf W i tr).subscribed = some id → ∃ q, h.inbox i = some (channel id, q)

section
variable [TaskJson Text] {G : Source Text B L} {W : Wire} {i j : Nat} {c : SseCmd}
  {r : c.Answer Text} {h h' : Hub B} {l : SseLabel Text L} {tr : List (SseLabel Text L)}

theorem phaseOf_own (ha : (streams G W).Answer i c r h h' l) :
    phaseOf W i (l :: tr) = (phaseOf W i tr).after W c r := by
  cases ha with
  | cmd _ | abort _ => exact if_pos rfl

theorem phaseOf_other (ha : (streams G W).Answer i c r h h' l) (hj : j ≠ i) :
    phaseOf W j (l :: tr) = phaseOf W j tr := by
  cases ha with
  | cmd _ | abort _ => exact if_neg (Ne.symm hj)

theorem phaseOf_spawn (j : Nat) (id : String) :
    phaseOf W j (.spawn i (.stream id) :: tr) = if i = j then .asking id else phaseOf W j tr := rfl

/-- A stream that takes its next turn is where it was. -/
theorem phaseOf_exit {q : SseKind} {b : Except Exc Streamed} (hb : (phaseOf W i tr).Returns q b)
    (j : Nat) : phaseOf W j (.exit i q b :: tr) = phaseOf W j tr ∨
      i = j ∧ phaseOf W j (.exit i q b :: tr) = .gone := by
  by_cases hj : i = j
  · subst hj
    have he : phaseOf W i (.exit i q b :: tr) = (nextPoll q b).elim .gone SseKind.entry :=
      if_pos rfl
    rcases hb.next with ⟨id, hd, hn⟩ | ⟨hn, _⟩
    · exact .inl (he.trans (hn.trans hd.symm))
    · exact .inr ⟨rfl, he.trans hn⟩
  · exact .inl (if_neg hj)

theorem phaseOf_of_not_mem (h : i ∉ Monitor.actors tr) : phaseOf W i tr = .gone := by
  induction tr with
  | nil => rfl
  | cons l tr ih =>
    cases l with
    | cmd j _ _ | abort j _ _ | spawn j _ | exit j _ _ =>
      have hj : i ≠ j := List.ne_of_not_mem_cons h
      exact (if_neg (Ne.symm hj)).trans (ih (List.not_mem_of_not_mem_cons h))
    | env e => exact ih h
    | halt => rfl

variable (G W) in
/-- The ghost values are the phases, and every label is allowed. -/
def phasing : Assertion (streams G W) Phase where
  ok _ _ _ _ := True
  inv tr _ ds := (∀ i, phaseOf W i tr = ds i) ∧ Obeys W tr
  guar _ _ _ := True

theorem phasing_followed (h₀ : Hub B) : Followed (phasing G W) h₀ where
  start := ⟨fun _ => rfl, trivial⟩
  move := by
    rintro tr h ds i c r h' l ⟨hd, -⟩ ha - hc
    rw [← hd i] at hc ⊢
    refine ⟨trivial, fun j => ?_, ?_⟩
    · by_cases hj : j = i
      · rw [hj, phaseOf_own ha, Function.update_self]
      · rw [phaseOf_other ha hj, Function.update_of_ne hj, hd]
    · cases ha with
      | cmd _ | abort _ => exact hc
  spawn := by
    rintro tr h ds i id ⟨hd, -⟩ hi -
    refine ⟨trivial, fun j => ?_, (hd i).trans hi⟩
    rw [phaseOf_spawn]
    by_cases hj : j = i
    · rw [hj, if_pos rfl, Function.update_self]
    · rw [if_neg (Ne.symm hj), Function.update_of_ne hj, hd]
  exit := by
    rintro tr h ds i q b ⟨hd, -⟩ hb -
    rw [← hd i] at hb
    refine ⟨trivial, fun j => ?_, hb⟩
    by_cases hj : j = i
    · rw [hj, Function.update_self]
      exact if_pos rfl
    · rw [Function.update_of_ne hj, ← hd]
      exact if_neg (Ne.symm hj)
  env := by
    rintro tr h ds e h' ⟨hd, -⟩ - -
    exact ⟨trivial, hd, trivial⟩
  halt := fun tr h ds _ _ => ⟨trivial, fun _ => rfl, trivial⟩

section
variable {ok : StepFilter SseCmd (SseCmd.Answer Text) (Except Exc Streamed) (Hub B) SseKind L}
  {h₀ : Hub B} {s : SseConfig Text B}

theorem phases_of_run (hr : Run (streams G W) ok (.idle h₀) tr s) :
    ∃ ds, (phasing G W).Holds .gone (fun q b d => d.Returns q b) tr s ds :=
  (phasing_followed h₀).sound.holds (hr.refine fun _ _ _ _ _ _ _ => trivial)

theorem obeys_of_run (hr : Run (streams G W) ok (.idle h₀) tr s) : Obeys W tr := by
  obtain ⟨ds, hi⟩ := phases_of_run hr
  exact hi.inv.2

theorem returns_of_run (hr : Run (streams G W) ok (.idle h₀) tr s) {q : SseKind}
    {b : Except Exc Streamed} (hp : s.pool i = some (q, .ret b)) :
    (phaseOf W i tr).Returns q b := by
  obtain ⟨ds, hi⟩ := phases_of_run hr
  rw [hi.inv.1 i]
  exact hi.safe i q _ hp

end

/-- The task whose messages a stream still heeds. -/
def Phase.hears : Phase → Option String
  | .listening id | .holding id _ | .showing id _ | .framing id _ => some id
  | _ => none

/-- What a command makes of a phase. -/
inductive Phase.Passage : Phase → (c : SseCmd) → c.Answer Text → Phase → Prop where
  | ask (id : String) (r : SseCmd.Answer Text (.get id)) :
      Passage (.asking id) (.get id) r (asked id r)
  | subscribe (id : String) :
      Passage (.opening id) (.subscribe (channel id)) (.ok ()) (.listening id)
  | refuse (id : String) (e : Exc) :
      Passage (.opening id) (.subscribe (channel id)) (.error e) (.refused id (.raised e))
  | hear {id : String} {d d' : Phase} {c : SseCmd} (r : c.Answer Text) (hd : d.hears = some id)
      (hd' : d'.hears = some id) (hc : ∀ ch, c ≠ .subscribe ch ∧ c ≠ .unsubscribe ch) :
      Passage d c r d'
  | leave {id : String} {d : Phase} {c : SseCmd} {ending : Ending} (r : c.Answer Text)
      (hd : d.hears = some id) (he : ∀ f, ending ≠ .terminal f)
      (hc : ∀ ch, c ≠ .subscribe ch ∧ c ≠ .unsubscribe ch) : Passage d c r (.leaving id ending)
  | part {f : SseFrame} (id : String) (ht : isTerminalEvent f.event = true) :
      Passage (.framing id f) (.send (.event f)) (.ok ()) (.closing id f)
  | close (id : String) (f : SseFrame) :
      Passage (.closing id f) (.publish (channel id) doneMessage) (.ok ())
        (.leaving id (.terminal f))
  | fail (id : String) (f : SseFrame) (e : Exc) :
      Passage (.closing id f) (.publish (channel id) doneMessage) (.error e)
        (.leaving id (.raised e))
  | unsubscribe {ending ending' : Ending} (id : String)
      (r : SseCmd.Answer Text (.unsubscribe (channel id)))
      (he : ending' = ending ∨ ∃ e, r = .error e ∧ ending' = .raised e) :
      Passage (.leaving id ending) (.unsubscribe (channel id)) r (.ended id ending')

theorem Phase.passage {d : Phase} (hc : d.sends c) : Passage d c r (d.after W c r) := by
  have hheed (id : String) (msg : Message) (r : SseCmd.Answer Text .time) :
      Passage (.holding id msg) .time r (heed W id msg) := by
    unfold heed
    split
    · exact .hear r rfl rfl fun _ => ⟨nofun, nofun⟩
    · split
      · exact .leave r rfl nofun fun _ => ⟨nofun, nofun⟩
      · split
        · exact .hear r rfl rfl fun _ => ⟨nofun, nofun⟩
        · split
          · exact .hear r rfl rfl fun _ => ⟨nofun, nofun⟩
          · exact .leave r rfl nofun fun _ => ⟨nofun, nofun⟩
  cases d with
  | asking id =>
    obtain rfl := hc
    exact .ask id r
  | opening id =>
    obtain rfl := hc
    rcases r with e | _
    · exact .refuse id e
    · exact .subscribe id
  | listening id =>
    have hw (ch : String) : c ≠ .subscribe ch ∧ c ≠ .unsubscribe ch :=
      ⟨fun he => (by subst he; cases hc), fun he => (by subst he; cases hc)⟩
    rcases r with e | a
    · cases c <;> exact .leave _ rfl nofun hw
    · cases c with
      | getMessage => cases a <;> exact .hear _ rfl rfl hw
      | isDisconnected =>
        cases a with
        | true => exact .leave _ rfl nofun hw
        | false => exact .hear _ rfl rfl hw
      | time | sleep | send _ => exact .hear _ rfl rfl hw
      | get _ | subscribe _ | publish _ _ | unsubscribe _ => cases hc
  | holding id msg =>
    obtain rfl := hc
    exact hheed id msg r
  | showing id event =>
    obtain rfl := hc
    rcases r with e | _ | _
    · exact .leave _ rfl nofun fun _ => ⟨nofun, nofun⟩
    · rw [after, frame]
      split
      · exact .hear _ rfl rfl fun _ => ⟨nofun, nofun⟩
      · exact .leave _ rfl nofun fun _ => ⟨nofun, nofun⟩
    · exact .leave _ rfl nofun fun _ => ⟨nofun, nofun⟩
  | framing id frame =>
    obtain rfl := hc
    rcases r with e | _
    · exact .leave _ rfl nofun fun _ => ⟨nofun, nofun⟩
    · rw [after]
      split
      · rename_i ht
        exact .part id ht
      · exact .hear _ rfl rfl fun _ => ⟨nofun, nofun⟩
  | closing id frame =>
    obtain rfl := hc
    rcases r with e | _
    · exact .fail id frame e
    · exact .close id frame
  | leaving id ending =>
    obtain rfl := hc
    rcases r with e | _
    · rw [after]
      split
      · exact .unsubscribe id _ (.inl rfl)
      · exact .unsubscribe id _ (.inr ⟨e, rfl, rfl⟩)
    · exact .unsubscribe id _ (.inl rfl)
  | gone | refused _ _ | ended _ _ => exact hc.elim

theorem Phase.subscribed_of_hears {d : Phase} {id : String} (hd : d.hears = some id) :
    d.subscribed = some id := by
  cases d with
  | listening _ | holding _ _ | showing _ _ | framing _ _ => exact hd
  | _ => cases hd

/-- A stream keeps its subscription, or has just got it. -/
theorem Phase.after_subscribed {d : Phase} {id : String} (hc : d.sends c)
    (hd : (d.after W c r).subscribed = some id) :
    d.subscribed = some id ∧ (∀ ch, c ≠ .subscribe ch ∧ c ≠ .unsubscribe ch) ∨
      d = .opening id ∧ c = .subscribe (channel id) ∧ ∃ a, r = .ok a := by
  have hp : Passage d c r (d.after W c r) := passage hc
  generalize d.after W c r = d' at hp hd
  cases hp with
  | ask id' r' =>
    rcases Phase.asked_cases id' r' with he | ⟨ending, he⟩ <;> rw [he] at hd <;> cases hd
  | subscribe id' =>
    obtain rfl := Option.some.inj hd
    exact .inr ⟨rfl, rfl, _, rfl⟩
  | refuse id' e => cases hd
  | hear _ hd₁ hd₂ hc =>
    obtain rfl := Option.some.inj (hd.symm.trans (subscribed_of_hears hd₂))
    exact .inl ⟨subscribed_of_hears hd₁, hc⟩
  | leave _ hd₁ he hc =>
    obtain rfl := Option.some.inj hd
    exact .inl ⟨subscribed_of_hears hd₁, hc⟩
  | part id' ht => exact .inl ⟨hd, fun _ => ⟨nofun, nofun⟩⟩
  | close id' f => exact .inl ⟨hd, fun _ => ⟨nofun, nofun⟩⟩
  | fail id' f e => exact .inl ⟨hd, fun _ => ⟨nofun, nofun⟩⟩
  | unsubscribe id' _ he => cases hd

omit [TaskJson Text] in
/-- What a command does to its own subscription. -/
theorem sseExec_own {ch : String} {q : List String} (hx : sseExec G i c r h h')
    (hin : h.inbox i = some (ch, q)) (hc : ∀ ch, c ≠ .subscribe ch ∧ c ≠ .unsubscribe ch) :
    ∃ q', h'.inbox i = some (ch, q') := by
  cases c with
  | subscribe ch' => exact absurd rfl (hc ch').1
  | unsubscribe ch' => exact absurd rfl (hc ch').2
  | publish ch' data =>
    obtain ⟨-, rfl⟩ := hx
    exact ⟨_, by rw [Hub.deliver_inbox, hin, Option.map_some]⟩
  | getMessage =>
    obtain ⟨-, rfl⟩ | ⟨ch', data, rest, hq, -, rfl⟩ := hx
    · exact ⟨q, hin⟩
    · obtain ⟨rfl, rfl⟩ := Prod.mk.inj (Option.some.inj (hin.symm.trans hq))
      exact ⟨rest, Function.update_self ..⟩
  | get _ | time | sleep | isDisconnected | send _ =>
    obtain ⟨-, rfl⟩ := hx
    exact ⟨q, hin⟩

theorem Tuned.answer (ht : Tuned W tr h) (ha : (streams G W).Answer i c r h h' l)
    (hc : (phaseOf W i tr).sends c) : Tuned W (l :: tr) h' := by
  intro j id hd
  by_cases hj : j = i
  · subst hj
    rw [phaseOf_own ha] at hd
    obtain ⟨hd, hsu⟩ | ⟨hd, rfl, a, rfl⟩ := Phase.after_subscribed hc hd
    · obtain ⟨q, hq⟩ := ht j id hd
      cases ha with
      | cmd hx => exact sseExec_own hx hq hsu
      | abort hx =>
        obtain ⟨-, e, -, -, rfl | ⟨a, hx⟩⟩ := hx
        · exact ⟨q, hq⟩
        · exact sseExec_own hx hq hsu
    · cases ha with
      | cmd hx =>
        obtain ⟨-, rfl⟩ := hx
        exact ⟨[], Function.update_self ..⟩
      | abort hx =>
        obtain ⟨-, e, he, -⟩ := hx
        cases he
  · rw [phaseOf_other ha hj] at hd
    obtain ⟨q, hq⟩ := ht j id hd
    obtain ⟨messages, hin, -⟩ := sse_answer_inbox ha (Ne.symm hj)
    exact ⟨_, by rw [hin, Hub.deliver_inbox, hq, Option.map_some]⟩

theorem Tuned.spawn (ht : Tuned W tr h) (i : Nat) (id : String) :
    Tuned W (.spawn i (.stream id) :: tr) h := by
  intro j id' hd
  rw [phaseOf_spawn] at hd
  split at hd
  · cases hd
  · exact ht j id' hd

theorem Tuned.exit (ht : Tuned W tr h) {q : SseKind} {b : Except Exc Streamed}
    (hb : (phaseOf W i tr).Returns q b) : Tuned W (.exit i q b :: tr) h := by
  intro j id hd
  rcases phaseOf_exit hb j with he | ⟨_, he⟩
  · rw [he] at hd
    exact ht j id hd
  · rw [he] at hd
    cases hd

theorem Tuned.env (ht : Tuned W tr h) {e : L} (he : sourceStep G e h h') :
    Tuned W (.env e :: tr) h' := by
  obtain ⟨b, messages, -, -, rfl⟩ := he
  intro j id hd
  obtain ⟨q, hq⟩ := ht j id hd
  have hin : (h.deliver messages).inbox j = some (channel id,
      q ++ (messages.filter (·.1 = channel id)).map (·.2)) := by
    rw [Hub.deliver_inbox, hq, Option.map_some]
  exact ⟨_, hin⟩

variable (G W) in
/-- A property of the labels and of the hub that every step keeps. -/
structure Upheld
    (ok : StepFilter SseCmd (SseCmd.Answer Text) (Except Exc Streamed) (Hub B) SseKind L)
    (h₀ : Hub B) (P : List (SseLabel Text L) → Hub B → Prop) : Prop where
  start : P [] h₀
  answer : ∀ tr h i c (r : c.Answer Text) h' l, P tr h → Tuned W tr h →
    (streams G W).Answer i c r h h' l → ok tr h l h' → (phaseOf W i tr).sends c → P (l :: tr) h'
  spawn : ∀ tr h i id, P tr h → P (.spawn i (.stream id) :: tr) h
  exit : ∀ tr h i q b, P tr h → (phaseOf W i tr).Returns q b → P (.exit i q b :: tr) h
  env : ∀ tr h e h', P tr h → Tuned W tr h → sourceStep G e h h' → ok tr h (.env e) h' →
    P (.env e :: tr) h'
  halt : ∀ tr h, P tr h → P (.halt :: tr) { h with inbox := fun _ => none }

theorem Upheld.holds
    {ok : StepFilter SseCmd (SseCmd.Answer Text) (Except Exc Streamed) (Hub B) SseKind L}
    {h₀ : Hub B} {P : List (SseLabel Text L) → Hub B → Prop} (hP : Upheld G W ok h₀ P)
    {s : SseConfig Text B} (hr : Run (streams G W) ok (.idle h₀) tr s) :
    Tuned W tr s.world ∧ P tr s.world := by
  induction hr with
  | nil => exact ⟨fun i id hd => (by cases hd), hP.start⟩
  | cons hr hs hok ih =>
    obtain ⟨ht, hp⟩ := ih
    have ho := obeys_of_run (.cons hr hs hok)
    cases hs with
    | answer _ ha =>
      have hc := ho
      cases ha with
      | cmd hx =>
        exact ⟨ht.answer (.cmd hx) hc, hP.answer _ _ _ _ _ _ _ hp ht (.cmd hx) hok hc⟩
      | abort hx =>
        exact ⟨ht.answer (.abort hx) hc, hP.answer _ _ _ _ _ _ _ hp ht (.abort hx) hok hc⟩
    | spawn _ hq =>
      obtain ⟨⟨id, rfl⟩, rfl⟩ := hq
      exact ⟨ht.spawn _ id, hP.spawn _ _ _ id hp⟩
    | exit _ he =>
      obtain ⟨rfl, -⟩ := he
      exact ⟨ht.exit ho, hP.exit _ _ _ _ _ hp ho⟩
    | env he => exact ⟨ht.env he, hP.env _ _ _ _ hp ht he hok⟩
    | halt hh =>
      obtain rfl := hh
      exact ⟨fun i id hd => (by cases hd), hP.halt _ _ hp⟩

theorem tuned_of_run
    {ok : StepFilter SseCmd (SseCmd.Answer Text) (Except Exc Streamed) (Hub B) SseKind L}
    {h₀ : Hub B} {s : SseConfig Text B} (hr : Run (streams G W) ok (.idle h₀) tr s) :
    Tuned W tr s.world := by
  have hup : Upheld G W ok h₀ fun _ _ => True :=
    ⟨trivial, fun _ _ _ _ _ _ _ _ _ _ _ _ => trivial, fun _ _ _ _ _ => trivial,
      fun _ _ _ _ _ _ _ => trivial, fun _ _ _ _ _ _ _ _ => trivial, fun _ _ _ => trivial⟩
  exact (hup.holds hr).1

end

end Orchestrator
