import Orchestrator.Beside
import Orchestrator.Fates

namespace Orchestrator
open Concurrency Async
set_option autoImplicit true

/-- The commands with which a stream waits for messages. -/
def SseCmd.idles : SseCmd → Bool
  | .getMessage | .sleep | .send .keepalive => true
  | _ => false

/-- Process `i` waits for messages of a task, and none is on its way. -/
def deaf (i : Nat) (id : String) (s : SseConfig Text B) : Bool :=
  match s.pool i with
  | some (_, .await c _) => c.idles && s.world.inbox i = some (channel id, [])
  | _ => false

/-- The task whose record a stream has read and whose channel it has not subscribed to yet. -/
def Phase.opens : Phase → Option String
  | .opening id => some id
  | _ => none

section
variable [TaskJson Text] (G : Source Text B L) (W : Wire)

/-- A finished task is not closed while a stream is between its look at the record and its
subscription. -/
def timely : StepFilter SseCmd (SseCmd.Answer Text) (Except Exc Streamed) (Hub B) SseKind L :=
  fun tr h _ h' => ∀ i, ∀ id ∈ (phaseOf W i tr).opens, G.terminal h'.base id = true →
    G.closes h'.base id = G.closes h.base id

/-- The record of the task is that of a finished one after the step. -/
def finishes (id : String) :
    StepFilter SseCmd (SseCmd.Answer Text) (Except Exc Streamed) (Hub B) SseKind L :=
  fun _ _ _ h' => G.terminal h'.base id = true

/-- After the first `n` closes of a task its record is that of a finished one. -/
def finishedFrom (id : String) (n : Nat) :
    StepFilter SseCmd (SseCmd.Answer Text) (Except Exc Streamed) (Hub B) SseKind L :=
  fun tr h l h' => timely G W tr h l h' ∧
    (n < G.closes h'.base id → G.terminal h'.base id = true)

/-- After the first `n` closes of a task, every stream of it is going to end. -/
def Attended (id : String) (n : Nat) (tr : List (SseLabel Text L)) (h : Hub B) : Prop :=
  n < G.closes h.base id → ∀ i, id ∉ (phaseOf W i tr).opens ∧
    ((phaseOf W i tr).subscribed = some id → (phaseOf W i tr).fate W (h.queue i) ≠ none)

end

section
variable [TaskJson Text] {G : Source Text B L} {W : Wire} {i : Nat} {c : SseCmd}
  {r : c.Answer Text} {h h' : Hub B} {l : SseLabel Text L} {d : Phase} {id : String}
  {tr : List (SseLabel Text L)} {n : Nat}

omit [TaskJson Text] in
theorem Source.closes_append {b b' : B} {messages : List (String × String)}
    (hb : G.published b' = G.published b ++ messages) (id : String) :
    G.closes b' id = G.closes b id + messages.count (channel id, doneMessage) := by
  rw [Source.closes, Source.closes, hb, List.count_append]

theorem closes_step {s s' : SseConfig Text B} (hs : (streams G W).Step s l s') (id : String) :
    G.closes s.world.base id ≤ G.closes s'.world.base id := by
  cases hs with
  | answer _ ha => rw [sse_answer_base ha]
  | spawn _ hq =>
    obtain ⟨-, rfl⟩ := hq
    exact le_rfl
  | exit _ he =>
    obtain ⟨rfl, -⟩ := he
    exact le_rfl
  | env he =>
    obtain ⟨b, messages, -, hb, rfl⟩ := he
    rw [Source.closes_append hb id]
    exact Nat.le_add_right ..
  | halt hh =>
    obtain rfl := hh
    exact le_rfl

theorem Phase.opens_of_hears (hd : d.hears = some id) : d.opens = none := by
  cases d with
  | listening _ | holding _ _ | showing _ _ | framing _ _ => rfl
  | _ => cases hd

/-- A stream that goes on to its subscription has read the record of an unfinished task. -/
theorem unfinished_of_opens (ha : (streams G W).Answer i c r h h' l) (hc : d.sends c)
    (ho : id ∈ (d.after W c r).opens) : G.terminal h.base id = false := by
  have hp : Phase.Passage d c r (d.after W c r) := Phase.passage hc
  generalize d.after W c r = d' at hp ho
  cases hp with
  | ask id' r =>
    cases ha with
    | cmd hx =>
      obtain ⟨rfl, rfl⟩ := hx
      cases hd : Phase.asked id' (.ok (G.record h'.base id')) with
      | opening id₂ =>
        obtain ⟨rfl, task, htask, hterm⟩ := Phase.asked_opening hd
        rw [hd] at ho
        obtain rfl := Option.some.inj ho
        rw [Source.terminal, htask]
        exact hterm
      | _ =>
        rw [hd] at ho
        cases ho
    | abort hx =>
      obtain ⟨-, e, rfl, -⟩ := hx
      cases ho
  | hear _ _ hd' _ =>
    rw [Phase.opens_of_hears hd'] at ho
    cases ho
  | subscribe _ | refuse _ _ | leave _ _ _ _ | part _ _ | close _ _ | fail _ _ _
  | unsubscribe _ _ _ => cases ho

theorem Attended.answer (hp : Attended G W id n tr h) (ht : Tuned W tr h)
    (ha : (streams G W).Answer i c r h h' l)
    (hok : n < G.closes h'.base id → G.terminal h'.base id = true)
    (hc : (phaseOf W i tr).sends c) : Attended G W id n (l :: tr) h' := by
  intro hn j
  have hb := sse_answer_base ha
  have hterm := hok hn
  rw [hb] at hn hterm
  obtain ⟨ho, hf⟩ := hp hn j
  by_cases hj : j = i
  · subst hj
    rw [phaseOf_own ha]
    refine ⟨fun ho' => ?_, fun hd => ?_⟩
    · cases hterm.symm.trans (unfinished_of_opens ha hc ho')
    · obtain ⟨hd, -⟩ | ⟨hd, -⟩ := Phase.after_subscribed hc hd
      · obtain ⟨q, hq⟩ := ht j id hd
        have hf := hf hd
        rw [Hub.queue_eq hq] at hf
        rcases Phase.fate_own ha hc hd hq with he | ⟨-, he⟩ | ⟨e, -, he⟩
        · rwa [he]
        · rw [he]
          exact nofun
        · rw [he]
          exact nofun
      · rw [hd] at ho
        exact absurd rfl ho
  · rw [phaseOf_other ha hj]
    refine ⟨ho, fun hd => ?_⟩
    obtain ⟨q, hq⟩ := ht j id hd
    obtain ⟨messages, hin, -⟩ := sse_answer_inbox ha (Ne.symm hj)
    rw [Phase.fate_deliver W hd hq hin]
    exact fun he => hf hd (Option.or_eq_none_iff.1 he).1

theorem Attended.env (hp : Attended G W id n tr h) (ht : Tuned W tr h) {e : L}
    (he : sourceStep G e h h') (hok : finishedFrom G W id n tr h (.env e) h') :
    Attended G W id n (.env e :: tr) h' := by
  obtain ⟨htimely, hterm⟩ := hok
  obtain ⟨b, messages, -, hb, rfl⟩ := he
  intro hn j
  rw [show phaseOf W j (.env e :: tr) = phaseOf W j tr from rfl]
  have hin : (⟨b, (h.deliver messages).inbox⟩ : Hub B).inbox j = (h.deliver messages).inbox j := rfl
  have hcount := Source.closes_append hb id
  by_cases hold : n < G.closes h.base id
  · obtain ⟨ho, hf⟩ := hp hold j
    refine ⟨ho, fun hd => ?_⟩
    obtain ⟨q, hq⟩ := ht j id hd
    rw [Phase.fate_deliver W hd hq hin]
    exact fun he => hf hd (Option.or_eq_none_iff.1 he).1
  · have hmem : (channel id, doneMessage) ∈ messages := by
      apply List.count_pos_iff.1
      have hlt : G.closes h.base id < G.closes b id := lt_of_le_of_lt (not_lt.1 hold) hn
      omega
    have hdone : doneMessage ∈ (messages.filter (·.1 = channel id)).map (·.2) :=
      List.mem_map.2 ⟨_, List.mem_filter.2 ⟨hmem, decide_eq_true rfl⟩, rfl⟩
    refine ⟨fun ho => hold ?_, fun hd => ?_⟩
    · have hsame : G.closes b id = G.closes h.base id := htimely j id ho (hterm hn)
      rw [← hsame]
      exact hn
    · obtain ⟨q, hq⟩ := ht j id hd
      rw [Phase.fate_deliver W hd hq hin]
      exact fun he => fateOf_done W hdone (Option.or_eq_none_iff.1 he).2

variable (G W) in
theorem attended_upheld (id : String) (n : Nat) (h₀ : Hub B) :
    Upheld G W (finishedFrom G W id n) h₀ (Attended G W id n) where
  start _ _ := ⟨nofun, nofun⟩
  answer tr h i c r h' l hp ht ha hok hc := hp.answer ht ha hok.2 hc
  spawn tr h i id' hp hn j := by
    rw [phaseOf_spawn]
    split
    · exact ⟨nofun, nofun⟩
    · exact hp hn j
  exit tr h i q b hp hb hn j := by
    rcases phaseOf_exit hb j with he | ⟨-, he⟩
    · rw [he]
      exact hp hn j
    · rw [he]
      exact ⟨nofun, nofun⟩
  env tr h e h' hp ht he hok := hp.env ht he hok
  halt tr h hp hn j := ⟨nofun, nofun⟩

/-- Up to its last close so far, nothing is required of the record. -/
theorem finishedFrom_of_run {h₀ : Hub B} {s : SseConfig Text B}
    (hr : Run (streams G W) (timely G W) (.idle h₀) tr s) (hn : G.closes s.world.base id ≤ n) :
    Run (streams G W) (finishedFrom G W id n) (.idle h₀) tr s := by
  induction hr with
  | nil => exact .nil
  | cons hr hs hok ih =>
    refine .cons (ih ((closes_step hs id).trans hn)) hs ⟨hok, fun hlt => ?_⟩
    exact absurd hn (not_le.2 hlt)

/-- A stream that waits is listening. -/
theorem listening_of_idles
    {ok : StepFilter SseCmd (SseCmd.Answer Text) (Except Exc Streamed) (Hub B) SseKind L}
    {h₀ : Hub B} {s : SseConfig Text B} (hr : Run (streams G W) ok (.idle h₀) tr s)
    {q : SseKind} {k : c.Answer Text → Coro SseCmd (SseCmd.Answer Text) (Except Exc Streamed)}
    (hp : s.pool i = some (q, .await c k)) (hc : c.idles = true) :
    ∃ id, phaseOf W i tr = .listening id := by
  have hanswer : ∃ r : c.Answer Text, sseExec G i c r s.world s.world := by
    cases c with
    | getMessage => exact ⟨.ok none, .inl ⟨rfl, rfl⟩⟩
    | sleep | send _ => exact ⟨.ok (), rfl, rfl⟩
    | get _ | subscribe _ | time | isDisconnected | publish _ _ | unsubscribe _ => cases hc
  obtain ⟨r, hx⟩ := hanswer
  have hr' : Run (streams G W) (fun _ _ _ _ => True) (.idle h₀) tr s :=
    hr.refine fun _ _ _ _ _ _ _ => trivial
  have ho : (phaseOf W i tr).sends c := obeys_of_run (.cons hr' (.answer hp (.cmd hx)) trivial)
  cases hd : phaseOf W i tr with
  | listening id => exact ⟨id, rfl⟩
  | gone | refused _ _ | ended _ _ =>
    rw [hd] at ho
    exact ho.elim
  | asking _ | opening _ | holding _ _ | showing _ _ | framing _ _ | closing _ _ | leaving _ _ =>
    rw [hd] at ho
    obtain rfl := ho
    cases hc

/-- Once a finished task is closed, no stream of it is left waiting for good. -/
theorem deaf_law {S : Setup Event} {b₀ : SysConfig Text Event}
    {tr tr' : List (SseLabel Text (SysLabel Text Event))}
    {s s' : SseConfig Text (SysConfig Text Event)}
    (hr : Run (server Text S W) (timely (tasks Text S) W) (.idle (Hub.start b₀)) tr s)
    (ha : Run.After (server Text S W) (fun tr h l h' => timely (tasks Text S) W tr h l h' ∧
      finishes (tasks Text S) id tr h l h') tr s tr' s')
    (hn : (tasks Text S).closes s.world.base id < (tasks Text S).closes s'.world.base id)
    (i : Nat) : deaf i id s' = false := by
  have hr' := (ha.mono fun _ _ _ _ hok => ⟨hok.1, fun _ => hok.2⟩).run
    (finishedFrom_of_run hr (le_refl ((tasks Text S).closes s.world.base id)))
  obtain ⟨ht, hp⟩ := (attended_upheld (tasks Text S) W id _ _).holds hr'
  apply Bool.eq_false_iff.2
  intro hdeaf
  unfold deaf at hdeaf
  split at hdeaf
  · rename_i q c k hpool
    obtain ⟨hc, hin⟩ := Bool.and_eq_true_iff.1 hdeaf
    have hin := of_decide_eq_true hin
    obtain ⟨id', hd⟩ := listening_of_idles hr' hpool hc
    obtain ⟨q', hq⟩ := ht i id' (by rw [hd]; rfl)
    obtain ⟨he, -⟩ := Prod.mk.inj (Option.some.inj (hin.symm.trans hq))
    obtain rfl := channel_inj.1 he
    apply (hp hn i).2 (by rw [hd]; rfl)
    rw [hd, Hub.queue_eq hin]
    rfl
  · cases hdeaf

end

theorem timely_iff [TaskJson Text] {G : Source Text B L} {W : Wire} {tr : List (SseLabel Text L)}
    {h h' : Hub B} {l : SseLabel Text L} : timely G W tr h l h' ↔
      ∀ i ∈ Monitor.actors tr, ∀ id ∈ (phaseOf W i tr).opens, G.terminal h'.base id = true →
        G.closes h'.base id = G.closes h.base id := by
  refine ⟨fun ht i _ => ht i, fun ht i => ?_⟩
  by_cases hi : i ∈ Monitor.actors tr
  · exact ht i hi
  · rw [phaseOf_of_not_mem hi]
    exact nofun

instance [TaskJson Text] (G : Source Text B L) (W : Wire) (tr : List (SseLabel Text L))
    (h : Hub B) (l : SseLabel Text L) (h' : Hub B) : Decidable (timely G W tr h l h') :=
  decidable_of_iff _ timely_iff.symm

instance [TaskJson Text] (G : Source Text B L) (id : String) (tr : List (SseLabel Text L))
    (h : Hub B) (l : SseLabel Text L) (h' : Hub B) : Decidable (finishes G id tr h l h') :=
  inferInstanceAs (Decidable (_ = true))

/-- A stream that subscribes while its task is running. -/
def inTime : ServerSchedule String := work taskToStream ++ look 0 "u" ++ listen 0 ++ work (go 2 2)

/-- A stream that has read the record of a running task, and is not subscribed yet. -/
def tooLate : ServerSchedule String := work taskToStream ++ look 0 "u" ++ work (go 2 2)

theorem deaf_law_inTime : ∃ tr s tr' s',
    Run (server Task demo demoWire) (timely (tasks Task demo) demoWire)
      (.idle (Hub.start (.idle .init))) tr s ∧
    Run.After (server Task demo demoWire) (fun tr h l h' =>
      timely (tasks Task demo) demoWire tr h l h' ∧
        finishes (tasks Task demo) "u" tr h l h') tr s tr' s' ∧
    (tasks Task demo).closes s.world.base "u" < (tasks Task demo).closes s'.world.base "u" ∧
    ∀ i, deaf i "u" s' = false := by
  obtain ⟨tr, s, tr', s', hr, ha, ho⟩ := (serverStepper demoDriver demoWire).observe_after
    (timely (tasks Task demo) demoWire) (fun tr h l h' =>
      timely (tasks Task demo) demoWire tr h l h' ∧ finishes (tasks Task demo) "u" tr h l h')
    (.idle (Hub.start (.idle .init))) inTime (work (go 2 6))
    (fun o o' => some (decide ((tasks Task demo).closes o.2.world.base "u" <
      (tasks Task demo).closes o'.2.world.base "u"))) (show _ = some true by decide)
  have hn := of_decide_eq_true (Option.some.inj ho)
  exact ⟨tr, s, tr', s', hr, ha, hn, deaf_law hr ha hn⟩

theorem not_deaf_law : ¬∀ tr s tr' s',
    Run (server Task demo demoWire) (fun _ _ _ _ => True)
      (.idle (Hub.start (.idle .init))) tr s →
    Run.After (server Task demo demoWire) (finishes (tasks Task demo) "u") tr s tr' s' →
    (tasks Task demo).closes s.world.base "u" < (tasks Task demo).closes s'.world.base "u" →
    ∀ i, deaf i "u" s' = false := by
  intro h
  obtain ⟨tr, s, tr', s', hr, ha, ho⟩ := (serverStepper demoDriver demoWire).observe_after
    (fun _ _ _ _ => True) (finishes (tasks Task demo) "u")
    (.idle (Hub.start (.idle .init))) tooLate (work (go 2 6) ++ listen 0)
    (fun o o' => some (decide ((tasks Task demo).closes o.2.world.base "u" <
      (tasks Task demo).closes o'.2.world.base "u"), deaf 0 "u" o'.2))
    (show _ = some (true, true) by decide)
  obtain ⟨hn, hd⟩ := Prod.mk.inj (Option.some.inj ho)
  cases (h tr s tr' s' hr ha (of_decide_eq_true hn) 0).symm.trans hd

end Orchestrator
