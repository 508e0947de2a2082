import Orchestrator.Beside
import Orchestrator.Hearing

namespace Orchestrator
open Concurrency Async
set_option autoImplicit true

/-- A SUBSCRIBE or an UNSUBSCRIBE of process `i` for this channel was cut short. -/
def severed (i : Nat) (ch : String) : List (SseLabel Text L) → Bool
  | .abort j (.subscribe ch') _ :: tr | .abort j (.unsubscribe ch') _ :: tr =>
    (j = i && ch' = ch) || severed i ch tr
  | _ :: tr => severed i ch tr
  | [] => false

/-- A subscription is that of a stream on its way, or Redis was cut off when it was to be entered
or given up. -/
def Tenanted [TaskJson Text] (W : Wire) (tr : List (SseLabel Text L)) (h : Hub B) : Prop :=
  ∀ i ch q, h.inbox i = some (ch, q) →
    (∃ id, (phaseOf W i tr).subscribed = some id ∧ ch = channel id) ∨ severed i ch tr = true

section
variable [TaskJson Text] {G : Source Text B L} {W : Wire} {i j : Nat} {c : SseCmd}
  {r : c.Answer Text} {h h' : Hub B} {l : SseLabel Text L} {tr : List (SseLabel Text L)}
  {ch : String} {q : List String}

omit [TaskJson Text] in
theorem severed_cons (hs : severed i ch tr = true) : severed i ch (l :: tr) = true := by
  unfold severed
  split
  · rename_i he
    cases he
    exact Bool.or_eq_true_iff.2 (.inr hs)
  · rename_i he
    cases he
    exact Bool.or_eq_true_iff.2 (.inr hs)
  · rename_i he
    cases he
    exact hs
  · rename_i he
    cases he

omit [TaskJson Text] in
theorem severed_subscribe (r : SseCmd.Answer Text (.subscribe ch)) :
    severed i ch (.abort i (.subscribe ch) r :: tr : List (SseLabel Text L)) = true := by
  simp only [severed, decide_true, Bool.and_self, Bool.true_or]

omit [TaskJson Text] in
theorem severed_unsubscribe (r : SseCmd.Answer Text (.unsubscribe ch)) :
    severed i ch (.abort i (.unsubscribe ch) r :: tr : List (SseLabel Text L)) = true := by
  simp only [severed, decide_true, Bool.and_self, Bool.true_or]

omit [TaskJson Text] in
/-- Only SUBSCRIBE makes a subscription, and only for its own stream. -/
theorem sseExec_channel (hx : sseExec G i c r h h') (hq : h'.inbox j = some (ch, q))
    (hc : ∀ ch', c ≠ .subscribe ch') : ∃ q', h.inbox j = some (ch, q') := by
  have hset (o : Option (String × List String)) (hj : j ≠ i) :
      (h.setInbox i o).inbox j = h.inbox j := Function.update_of_ne hj ..
  cases c with
  | subscribe ch' => exact absurd rfl (hc ch')
  | unsubscribe ch' =>
    obtain ⟨-, rfl⟩ := hx
    by_cases hj : j = i
    · subst hj
      have hn : (h.setInbox j none).inbox j = none := Function.update_self ..
      cases hn.symm.trans hq
    · exact ⟨q, (hset none hj).symm.trans hq⟩
  | publish ch' data =>
    obtain ⟨-, rfl⟩ := hx
    obtain ⟨⟨ch', q'⟩, hin, he⟩ := Option.map_eq_some_iff.1 hq
    obtain ⟨rfl, -⟩ := Prod.mk.inj he
    exact ⟨q', hin⟩
  | getMessage =>
    obtain ⟨-, rfl⟩ | ⟨ch', data, rest, hin, -, rfl⟩ := hx
    · exact ⟨q, hq⟩
    · by_cases hj : j = i
      · subst hj
        have hs : (h.setInbox j (some (ch', rest))).inbox j = some (ch', rest) :=
          Function.update_self ..
        obtain ⟨rfl, -⟩ := Prod.mk.inj (Option.some.inj (hs.symm.trans hq))
        exact ⟨_, hin⟩
      · exact ⟨q, (hset _ hj).symm.trans hq⟩
  | get _ | time | sleep | isDisconnected | send _ =>
    obtain ⟨-, rfl⟩ := hx
    exact ⟨q, hq⟩

/-- An answer makes no subscription unless it is to a SUBSCRIBE. -/
theorem sse_answer_channel (ha : (streams G W).Answer i c r h h' l)
    (hq : h'.inbox j = some (ch, q)) (hc : ∀ ch', c ≠ .subscribe ch') :
    ∃ q', h.inbox j = some (ch, q') := by
  cases ha with
  | cmd hx => exact sseExec_channel hx hq hc
  | abort hx =>
    obtain ⟨-, _, -, -, rfl | ⟨a, hx⟩⟩ := hx
    · exact ⟨q, hq⟩
    · exact sseExec_channel hx hq hc

/-- A stream that stays subscribed keeps its claim to its channel. -/
theorem Tenanted.stay (ht : Tenanted W tr h) (ha : (streams G W).Answer i c r h h' l)
    (hc : ∀ ch', c ≠ .subscribe ch') {d : Phase} {id : String}
    (hd : (phaseOf W i tr).subscribed = some id) (hd' : d.subscribed = some id)
    (hq : h'.inbox i = some (ch, q)) :
    (∃ id, d.subscribed = some id ∧ ch = channel id) ∨ severed i ch (l :: tr) = true := by
  obtain ⟨q', hin⟩ := sse_answer_channel ha hq hc
  rcases ht i ch q' hin with ⟨id', hs, rfl⟩ | hs
  · exact .inl ⟨id', hd'.trans (hd.symm.trans hs), rfl⟩
  · exact .inr (severed_cons hs)

theorem Tenanted.own (ht : Tenanted W tr h) (ha : (streams G W).Answer i c r h h' l)
    (hc : (phaseOf W i tr).sends c) (hq : h'.inbox i = some (ch, q)) :
    (∃ id, ((phaseOf W i tr).after W c r).subscribed = some id ∧ ch = channel id) ∨
      severed i ch (l :: tr) = true := by
  have hp : Phase.Passage (phaseOf W i tr) c r ((phaseOf W i tr).after W c r) := Phase.passage hc
  have hold : ∀ q', h.inbox i = some (ch, q') → (phaseOf W i tr).subscribed = none →
      severed i ch (l :: tr) = true := by
    intro q' hin hn
    rcases ht i ch q' hin with ⟨id, hs, -⟩ | hs
    · rw [hn] at hs
      cases hs
    · exact severed_cons hs
  generalize hd : phaseOf W i tr = d at hp hold
  generalize d.after W c r = d' at hp
  cases hp with
  | ask id r =>
    obtain ⟨q', hin⟩ := sse_answer_channel ha hq nofun
    exact .inr (hold q' hin rfl)
  | subscribe id =>
    cases ha with
    | cmd hx =>
      obtain ⟨-, rfl⟩ := hx
      have hs : (h.setInbox i (some (channel id, []))).inbox i = some (channel id, []) :=
        Function.update_self ..
      obtain ⟨rfl, -⟩ := Prod.mk.inj (Option.some.inj (hs.symm.trans hq))
      exact .inl ⟨id, rfl, rfl⟩
    | abort hx =>
      obtain ⟨-, e, he, -⟩ := hx
      cases he
  | refuse id e =>
    cases ha with
    | cmd hx =>
      obtain ⟨he, -⟩ := hx
      cases he
    | abort hx =>
      obtain ⟨-, _, -, -, rfl | ⟨a, -, rfl⟩⟩ := hx
      · exact .inr (hold q hq rfl)
      · have hs : (h.setInbox i (some (channel id, []))).inbox i = some (channel id, []) :=
          Function.update_self ..
        obtain ⟨rfl, -⟩ := Prod.mk.inj (Option.some.inj (hs.symm.trans hq))
        exact .inr (severed_subscribe _)
  | hear r hd₁ hd₂ hc =>
    exact ht.stay ha (fun ch' => (hc ch').1) (by rw [hd]; exact Phase.subscribed_of_hears hd₁)
      (Phase.subscribed_of_hears hd₂) hq
  | leave r hd₁ he hc =>
    exact ht.stay ha (fun ch' => (hc ch').1) (by rw [hd]; exact Phase.subscribed_of_hears hd₁)
      rfl hq
  | part id hterm => exact ht.stay ha nofun (by rw [hd]; rfl) rfl hq
  | close id f => exact ht.stay ha nofun (by rw [hd]; rfl) rfl hq
  | fail id f e => exact ht.stay ha nofun (by rw [hd]; rfl) rfl hq
  | unsubscribe id r he =>
    have hgone : (h.setInbox i none).inbox i = none := Function.update_self ..
    cases ha with
    | cmd hx =>
      obtain ⟨-, rfl⟩ := hx
      cases hgone.symm.trans hq
    | abort hx =>
      obtain ⟨-, _, -, -, rfl | ⟨a, -, rfl⟩⟩ := hx
      · rcases ht i ch q hq with ⟨id', hs, rfl⟩ | hs
        · rw [hd] at hs
          obtain rfl := Option.some.inj hs
          exact .inr (severed_unsubscribe r)
        · exact .inr (severed_cons hs)
      · cases hgone.symm.trans hq

theorem Tenanted.answer (ht : Tenanted W tr h) (ha : (streams G W).Answer i c r h h' l)
    (hc : (phaseOf W i tr).sends c) : Tenanted W (l :: tr) h' := by
  intro j ch q hq
  by_cases hj : j = i
  · subst hj
    rw [phaseOf_own ha]
    exact ht.own ha hc hq
  · rw [phaseOf_other ha hj]
    obtain ⟨messages, hin, -⟩ := sse_answer_inbox ha (Ne.symm hj)
    rw [hin] at hq
    obtain ⟨⟨ch', q'⟩, hin, he⟩ := Option.map_eq_some_iff.1 hq
    obtain ⟨rfl, -⟩ := Prod.mk.inj he
    exact (ht j ch' q' hin).imp_right severed_cons

/-- A stream that comes or goes finds the subscriptions as they are. -/
theorem Tenanted.rename (ht : Tenanted W tr h)
    (hd : ∀ j, (phaseOf W j tr).subscribed = (phaseOf W j (l :: tr)).subscribed) :
    Tenanted W (l :: tr) h := by
  intro j ch q hq
  rw [← hd j]
  exact (ht j ch q hq).imp_right severed_cons

/-- What a stream is subscribed to does not change when a turn of it is over. -/
theorem phaseOf_exit_subscribed {kind : SseKind} {b : Except Exc Streamed}
    (hb : (phaseOf W i tr).Returns kind b) (j : Nat) :
    (phaseOf W j tr).subscribed = (phaseOf W j (.exit i kind b :: tr)).subscribed := by
  by_cases hj : i = j
  · subst hj
    have he : phaseOf W i (.exit i kind b :: tr) = (nextPoll kind b).elim .gone SseKind.entry :=
      if_pos rfl
    obtain ⟨id, hd, hn⟩ | ⟨hn, hd⟩ := hb.next
    · rw [he, hn, hd]
    · rw [he, hn, hd]
      rfl
  · rw [show phaseOf W j (.exit i kind b :: tr) = phaseOf W j tr from if_neg hj]

theorem Tenanted.env (ht : Tenanted W tr h) {e : L} (he : sourceStep G e h h') :
    Tenanted W (.env e :: tr) h' := by
  obtain ⟨b, messages, -, -, rfl⟩ := he
  intro j ch q hq
  obtain ⟨⟨ch', q'⟩, hin, he⟩ := Option.map_eq_some_iff.1 hq
  obtain ⟨rfl, -⟩ := Prod.mk.inj he
  exact ht j ch' q' hin

theorem tenanted_of_run
    {ok : StepFilter SseCmd (SseCmd.Answer Text) (Except Exc Streamed) (Hub B) SseKind L} {b : B}
    {s : SseConfig Text B} (hr : Run (streams G W) ok (.idle (Hub.start b)) tr s) :
    Tenanted W tr s.world := by
  induction hr with
  | nil => exact fun i ch q hq => nomatch hq
  | cons hr hs hok ih =>
    have ho := obeys_of_run (.cons hr hs hok)
    cases hs with
    | answer _ ha =>
      have hc := ho
      cases ha with
      | cmd hx => exact ih.answer (.cmd hx) hc
      | abort hx => exact ih.answer (.abort hx) hc
    | @spawn i q w hp hq =>
      obtain ⟨⟨id, rfl⟩, rfl⟩ := hq
      apply ih.rename
      intro j
      rw [phaseOf_spawn]
      by_cases hj : i = j
      · subst hj
        rw [if_pos rfl, show phaseOf W i _ = .gone from ho]
        rfl
      · rw [if_neg hj]
    | exit _ he =>
      obtain ⟨rfl, -⟩ := he
      exact ih.rename (phaseOf_exit_subscribed ho)
    | env he => exact ih.env he
    | halt hh =>
      obtain rfl := hh
      exact fun i ch q hq => nomatch hq

/-- A process that does not exist is in no phase. -/
theorem present_of_subscribed
    {ok : StepFilter SseCmd (SseCmd.Answer Text) (Except Exc Streamed) (Hub B) SseKind L}
    {h₀ : Hub B} {s : SseConfig Text B} (hr : Run (streams G W) ok (.idle h₀) tr s) {id : String}
    (hd : (phaseOf W i tr).subscribed = some id) : (s.pool i).isSome = true := by
  obtain ⟨ds, hi⟩ := phases_of_run hr
  rw [Option.isSome_iff_ne_none]
  intro hp
  rw [hi.inv.1 i, hi.absent i hp] at hd
  cases hd

/-- A stream that is on its way is subscribed to the channel of its task. It leaves no subscription
behind, however it ends, unless Redis was cut off when it subscribed or unsubscribed. -/
theorem tenancy_law {S : Setup Event} {b₀ : SysConfig Text Event}
    {tr : List (SseLabel Text (SysLabel Text Event))}
    {s : SseConfig Text (SysConfig Text Event)}
    (hr : Run (server Text S W) (fun _ _ _ _ => True) (.idle (Hub.start b₀)) tr s) (i : Nat) :
    (∀ id, (phaseOf W i tr).subscribed = some id → ∃ q, s.world.inbox i = some (channel id, q)) ∧
      ∀ ch q, s.world.inbox i = some (ch, q) → severed i ch tr = false →
        (s.pool i).isSome = true ∧ ∃ id, (phaseOf W i tr).subscribed = some id ∧
          ch = channel id := by
  refine ⟨fun id hd => tuned_of_run hr i id hd, fun ch q hq hs => ?_⟩
  rcases tenanted_of_run hr i ch q hq with ⟨id, hd, rfl⟩ | hs'
  · exact ⟨present_of_subscribed hr hd, id, hd, rfl⟩
  · cases hs.symm.trans hs'

end

/-- A stream from its subscription to its end, beside the worker that runs its task. -/
def heardOut : ServerSchedule String :=
  work taskToStream ++ look 0 "u" ++ listen 0 ++ work (go 2 5) ++ attend 0 3 ++ [.inl (.exit 0)]

theorem tenancy_law_heardOut : ∃ tr s,
    Run (server Task demo demoWire) (fun _ _ _ _ => True) (.idle (Hub.start (.idle .init))) tr s ∧
    severed 0 (channel "u") tr = false ∧
    ∀ q, s.world.inbox 0 ≠ some (channel "u", q) := by
  obtain ⟨tr, s, hr, ho⟩ := (serverStepper demoDriver demoWire).observe
    (fun _ _ _ _ => True) (.idle (Hub.start (.idle .init))) heardOut
    (fun o => some (severed 0 (channel "u") o.1, (o.2.pool 0).isSome))
    (show _ = some (false, false) by decide)
  obtain ⟨hs, hp⟩ := Prod.mk.inj (Option.some.inj ho)
  refine ⟨tr, s, hr, hs, fun q hq => ?_⟩
  have hsome := ((tenancy_law hr 0).2 _ q hq hs).1
  cases hp.symm.trans hsome

end Orchestrator
