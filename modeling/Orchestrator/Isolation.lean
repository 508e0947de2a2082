import Orchestrator.Beside
import Orchestrator.Deafness
import Orchestrator.Fates
import Orchestrator.Relay

namespace Orchestrator
open Concurrency Async
set_option autoImplicit true

/-- The process that takes a step. -/
def mover : SseLabel Text L → Option Nat
  | .cmd i _ _ | .abort i _ _ | .spawn i _ | .exit i _ _ => some i
  | .env _ | .halt => none

/-- A run without the steps of process `a`. -/
def erase (a : Nat) : List (SseLabel Text L) → List (SseLabel Text L)
  | [] => []
  | l :: tr => if mover l = some a then erase a tr else l :: erase a tr

/-- The frames that process `i` has sent. -/
def framesOf (i : Nat) : List (SseLabel Text L) → List Frame
  | [] => []
  | .cmd j (.send frame) _ :: tr => if j = i then framesOf i tr ++ [frame] else framesOf i tr
  | _ :: tr => framesOf i tr

theorem framesOf_erase {a i : Nat} (hi : i ≠ a) (tr : List (SseLabel Text L)) :
    framesOf i (erase a tr) = framesOf i tr := by
  induction tr with
  | nil => rfl
  | cons l tr ih =>
    rw [erase]
    split
    · rename_i ha
      rw [ih]
      cases l with
      | cmd j c r =>
        obtain rfl := Option.some.inj ha
        cases c with
        | send frame => exact (if_neg (Ne.symm hi)).symm
        | _ => rfl
      | _ => rfl
    · cases l with
      | cmd j c r =>
        cases c with
        | send frame =>
          rw [framesOf, framesOf, ih]
        | _ => exact ih
      | _ => exact ih

/-- What process `a` publishes comes in for no other stream, unless that is going to end anyway. -/
def unhindered [TaskJson Text] (W : Wire) (a : Nat) :
    StepFilter SseCmd (SseCmd.Answer Text) (Except Exc Streamed) (Hub B) SseKind L :=
  fun tr h l h' => mover l = some a → ∀ i, i ≠ a → ∀ id ∈ (phaseOf W i tr).subscribed,
    (phaseOf W i tr).fate W (h.queue i) = none → h'.queue i = h.queue i

/-- The messages of a stream in two runs. They may differ after one that ends the stream. -/
def Alike (W : Wire) (d : Phase) (o o' : Option (String × List String)) : Prop :=
  ∀ id, d.subscribed = some id → ∃ q q₁ q₂, o = some (channel id, q ++ q₁) ∧
    o' = some (channel id, q ++ q₂) ∧ (d.fate W q = none → q₁ = q₂)

/-- The hub of the run without process `a`. -/
structure Shadow [TaskJson Text] (W : Wire) (a : Nat) (tr : List (SseLabel Text L))
    (h h₁ : Hub B) : Prop where
  base : h₁.base = h.base
  inbox : ∀ i, i ≠ a → Alike W (phaseOf W i tr) (h.inbox i) (h₁.inbox i)

/-- The run without process `a` is a run, in which every other process is where it was, with the
same frames sent. -/
def Isolated [TaskJson Text] (S : Setup Event) (W : Wire) (b₀ : SysConfig Text Event) (a : Nat)
    (tr : List (SseLabel Text (SysLabel Text Event)))
    (s : SseConfig Text (SysConfig Text Event)) : Prop :=
  ∃ s', Run (server Text S W) (fun _ _ _ _ => True) (.idle (Hub.start b₀)) (erase a tr) s' ∧
    s'.world.base = s.world.base ∧ s'.pool a = none ∧
    ∀ i, i ≠ a → s'.pool i = s.pool i ∧ framesOf i (erase a tr) = framesOf i tr

section
variable [TaskJson Text] {G : Source Text B L} {W : Wire} {a i j : Nat} {c : SseCmd}
  {r : c.Answer Text} {h h' h₁ : Hub B} {l : SseLabel Text L} {d d' : Phase} {id : String}
  {tr : List (SseLabel Text L)} {o o' : Option (String × List String)}

omit [TaskJson Text] in
theorem Alike.deliver (ha : Alike W d (h.inbox i) (h₁.inbox i))
    (messages : List (String × String)) :
    Alike W d ((h.deliver messages).inbox i) ((h₁.deliver messages).inbox i) := by
  intro id hd
  obtain ⟨q, q₁, q₂, ho, ho', hq⟩ := ha id hd
  rw [Hub.deliver_inbox, Hub.deliver_inbox, ho, ho', Option.map_some, Option.map_some]
  refine ⟨q, _, _, by rw [List.append_assoc], by rw [List.append_assoc], fun hf => ?_⟩
  rw [hq hf]

/-- The next message of a stream is the same in both runs. -/
theorem Alike.head {ch data : String} {rest : List String} (ha : Alike W (.listening id) o o')
    (ho : o = some (ch, data :: rest)) : ∃ rest', o' = some (ch, data :: rest') ∧
      Alike W (.holding id ⟨"message", data⟩) (some (ch, rest)) (some (ch, rest')) := by
  obtain ⟨q, q₁, q₂, hq₁, hq₂, hq⟩ := ha id rfl
  obtain ⟨rfl, he⟩ := Prod.mk.inj (Option.some.inj (ho.symm.trans hq₁))
  cases q with
  | nil =>
    obtain rfl := hq rfl
    rw [List.nil_append] at he
    refine ⟨rest, by rw [hq₂, List.nil_append, he], fun id' hd => ?_⟩
    obtain rfl := Option.some.inj hd
    exact ⟨rest, [], [], by rw [List.append_nil], by rw [List.append_nil], fun _ => rfl⟩
  | cons data' q =>
    obtain ⟨rfl, rfl⟩ := List.cons.inj he
    refine ⟨q ++ q₂, hq₂, fun id' hd => ?_⟩
    obtain rfl := Option.some.inj hd
    refine ⟨q, q₁, q₂, rfl, rfl, fun hf => hq ?_⟩
    rw [Phase.fate, fateOf_cons]
    exact hf

/-- Every command but the wait for a message leaves the messages alike. -/
theorem Alike.after (ha : Alike W d o o') (hc : d.sends c) (hm : c ≠ .getMessage)
    (hs : ∀ ch, c ≠ .subscribe ch) : Alike W (d.after W c r) o o' := by
  intro id hd
  obtain ⟨hd, -⟩ | ⟨-, he, -⟩ := Phase.after_subscribed hc hd
  · obtain ⟨q, q₁, q₂, ho, ho', hq⟩ := ha id hd
    refine ⟨q, q₁, q₂, ho, ho', fun hf => hq ?_⟩
    have hafter : (d.after W c r).fate W q = d.fate W q ∨ _ := Phase.fate_after hc hd hm q
    rcases hafter with h | ⟨-, h⟩ | ⟨e, -, h⟩
    · rwa [← h]
    · cases hf.symm.trans h
    · cases hf.symm.trans h
  · exact absurd he (hs _)

/-- What a command does can be done in the other run as well. -/
theorem Alike.exec (ha : Alike W d (h.inbox j) (h₁.inbox j)) (hb : h₁.base = h.base)
    (hc : d.sends c) (hx : sseExec G j c r h h') : ∃ h₁', sseExec G j c r h₁ h₁' ∧
      Alike W (d.after W c r) (h'.inbox j) (h₁'.inbox j) := by
  cases c with
  | getMessage =>
    cases d with
    | listening id =>
      obtain ⟨rfl, rfl⟩ | ⟨ch, data, rest, hin, rfl, rfl⟩ := hx
      · exact ⟨h₁, .inl ⟨rfl, rfl⟩, ha⟩
      · obtain ⟨rest', hin', ha'⟩ := ha.head hin
        refine ⟨_, .inr ⟨ch, data, rest', hin', rfl, rfl⟩, ?_⟩
        have hself (h : Hub B) (rest : List String) :
            (h.setInbox j (some (ch, rest))).inbox j = some (ch, rest) := Function.update_self ..
        rw [hself, hself]
        exact ha'
    | gone | refused _ _ | ended _ _ => exact hc.elim
    | asking _ | opening _ | holding _ _ | showing _ _ | framing _ _ | closing _ _ | leaving _ _ =>
      cases hc
  | subscribe ch =>
    obtain ⟨rfl, rfl⟩ := hx
    refine ⟨_, ⟨rfl, rfl⟩, fun id hd => ?_⟩
    obtain ⟨-, he⟩ | ⟨-, he, -⟩ := Phase.after_subscribed hc hd
    · exact absurd rfl (he ch).1
    · obtain rfl := SseCmd.subscribe.inj he
      exact ⟨[], [], [], Function.update_self .., Function.update_self .., fun _ => rfl⟩
  | unsubscribe ch =>
    obtain ⟨rfl, rfl⟩ := hx
    refine ⟨_, ⟨rfl, rfl⟩, fun id hd => ?_⟩
    obtain ⟨-, he⟩ | ⟨-, he, -⟩ := Phase.after_subscribed hc hd
    · exact absurd rfl (he ch).2
    · cases he
  | publish ch data =>
    obtain ⟨rfl, rfl⟩ := hx
    exact ⟨_, ⟨rfl, rfl⟩, (ha.deliver _).after hc nofun nofun⟩
  | get id =>
    obtain ⟨rfl, rfl⟩ := hx
    rw [← hb]
    exact ⟨h₁, ⟨rfl, rfl⟩, ha.after hc nofun nofun⟩
  | time | sleep | isDisconnected | send _ =>
    obtain ⟨hr, rfl⟩ := hx
    exact ⟨h₁, ⟨hr, rfl⟩, ha.after hc nofun nofun⟩

/-- A command that is cut short ends the stream. -/
theorem Phase.after_error {e : Exc} (hc : d.sends c) (ht : c ≠ .time)
    (hd : (d.after W c (.error e : c.Answer Text)).subscribed = some id) :
    d.after W c (.error e : c.Answer Text) = .leaving id (.raised e) := by
  cases d with
  | listening id' =>
    have he : (Phase.listening id').after W c (.error e : c.Answer Text) =
        .leaving id' (.raised e) := by
      cases c <;> rfl
    rw [he] at hd ⊢
    rw [Option.some.inj hd]
  | holding id' msg => exact absurd hc ht
  | showing id' event | framing id' f | closing id' f =>
    obtain rfl := hc
    obtain rfl := Option.some.inj hd
    rfl
  | asking id' | opening id' | leaving id' ending =>
    obtain rfl := hc
    cases hd
  | gone | refused _ _ | ended _ _ => exact hc.elim

theorem Alike.abort (ha : Alike W d (h.inbox j) (h₁.inbox j)) (hb : h₁.base = h.base)
    (hc : d.sends c) (hx : sseAbort G j c r h h') : ∃ h₁', sseAbort G j c r h₁ h₁' ∧
      Alike W (d.after W c r) (h'.inbox j) (h₁'.inbox j) ∧ ∀ i, i ≠ j → ∃ messages,
        h'.inbox i = (h.deliver messages).inbox i ∧
        h₁'.inbox i = (h₁.deliver messages).inbox i := by
  obtain ⟨ht, e, rfl, hcls, hw⟩ := hx
  have hleaving {h₂ h₃ : Hub B} (hin : ∀ id, d.subscribed = some id →
      (∀ ch, c ≠ .subscribe ch ∧ c ≠ .unsubscribe ch) → ∃ q q',
        h₂.inbox j = some (channel id, q) ∧ h₃.inbox j = some (channel id, q')) :
      Alike W (d.after W c (.error e : c.Answer Text)) (h₂.inbox j) (h₃.inbox j) := by
    intro id hd
    obtain ⟨hsub, hne⟩ | ⟨-, -, a, he⟩ := Phase.after_subscribed hc hd
    · obtain ⟨q, q', hq, hq'⟩ := hin id hsub hne
      rw [Phase.after_error hc ht hd]
      exact ⟨[], q, q', hq, hq', nofun⟩
    · cases he
  obtain rfl | ⟨a, hx⟩ := hw
  · refine ⟨h₁, ⟨ht, e, rfl, hcls, .inl rfl⟩, hleaving fun id hd _ => ?_,
      fun i _ => ⟨[], by rw [Hub.deliver_nil], by rw [Hub.deliver_nil]⟩⟩
    obtain ⟨q, q₁, q₂, ho, ho', -⟩ := ha id hd
    exact ⟨_, _, ho, ho'⟩
  · obtain ⟨h₁', hx', -⟩ := ha.exec hb hc hx
    refine ⟨h₁', ⟨ht, e, rfl, hcls, .inr ⟨a, hx'⟩⟩, hleaving fun id hd hne => ?_,
      fun i hi => ⟨_, sseExec_inbox hx (Ne.symm hi), sseExec_inbox hx' (Ne.symm hi)⟩⟩
    obtain ⟨q, q₁, q₂, ho, ho', -⟩ := ha id hd
    obtain ⟨q', hq⟩ := sseExec_own hx ho hne
    obtain ⟨q'', hq'⟩ := sseExec_own hx' ho' hne
    exact ⟨q', q'', hq, hq'⟩

/-- A step of another process can be taken in the run without process `a`. -/
theorem Shadow.answer (hs : Shadow W a tr h h₁) (ha : (streams G W).Answer j c r h h' l)
    (hc : (phaseOf W j tr).sends c) (hja : j ≠ a) : ∃ h₁',
    (streams G W).Answer j c r h₁ h₁' l ∧ Shadow W a (l :: tr) h' h₁' := by
  obtain ⟨h₁', ha', hown, hothers⟩ : ∃ h₁', (streams G W).Answer j c r h₁ h₁' l ∧
      Alike W ((phaseOf W j tr).after W c r) (h'.inbox j) (h₁'.inbox j) ∧ ∀ i, i ≠ j →
        ∃ messages, h'.inbox i = (h.deliver messages).inbox i ∧
          h₁'.inbox i = (h₁.deliver messages).inbox i := by
    cases ha with
    | cmd hx =>
      obtain ⟨h₁', hx', hown⟩ := (hs.inbox j hja).exec hs.base hc hx
      exact ⟨h₁', .cmd hx', hown, fun i hi =>
        ⟨_, sseExec_inbox hx (Ne.symm hi), sseExec_inbox hx' (Ne.symm hi)⟩⟩
    | abort hx =>
      obtain ⟨h₁', hx', hown, hothers⟩ := (hs.inbox j hja).abort hs.base hc hx
      exact ⟨h₁', .abort hx', hown, hothers⟩
  refine ⟨h₁', ha', ?_, fun i hi => ?_⟩
  · rw [sse_answer_base ha, sse_answer_base ha', hs.base]
  · by_cases hij : i = j
    · rw [hij, phaseOf_own ha]
      exact hown
    · obtain ⟨messages, hin, hin'⟩ := hothers i hij
      rw [phaseOf_other ha hij, hin, hin']
      exact (hs.inbox i hi).deliver messages

/-- A step of process `a` can be left out. -/
theorem Shadow.skip (hs : Shadow W a tr h h₁)
    (ha : (streams G W).Answer a c r h h' l) (hok : unhindered W a tr h l h') :
    Shadow W a (l :: tr) h' h₁ where
  base := by rw [hs.base, sse_answer_base ha]
  inbox i hi := by
    rw [phaseOf_other ha hi]
    intro id hd
    have hl : mover l = some a := by
      cases ha with
      | cmd _ | abort _ => rfl
    obtain ⟨q, q₁, q₂, ho, ho', hq⟩ := hs.inbox i hi id hd
    obtain ⟨messages, hin, -⟩ := sse_answer_inbox ha (Ne.symm hi)
    rw [Hub.deliver_inbox, ho, Option.map_some] at hin
    cases hf : (phaseOf W i tr).fate W (h.queue i) with
    | some ending =>
      rw [Hub.queue_eq ho] at hf
      by_cases hfq : (phaseOf W i tr).fate W q = none
      · obtain rfl := hq hfq
        refine ⟨q ++ q₁, _, [], hin, by rw [ho', List.append_nil], fun hn => ?_⟩
        cases hf.symm.trans hn
      · exact ⟨q, _, q₂, by rw [hin, List.append_assoc], ho', fun hn => absurd hn hfq⟩
    | none =>
      have hsame := hok hl i hi id hd hf
      rw [Hub.queue_eq ho, Hub.queue_eq hin] at hsame
      exact ⟨q, q₁, q₂, by rw [hin, hsame], ho', hq⟩

/-- A step that only takes subscriptions away. -/
theorem Shadow.quiet (hs : Shadow W a tr h h₁) (hl : ∀ i, i ≠ a →
    phaseOf W i (l :: tr) = phaseOf W i tr ∨ (phaseOf W i (l :: tr)).subscribed = none) :
    Shadow W a (l :: tr) h h₁ where
  base := hs.base
  inbox i hi := by
    rcases hl i hi with he | hn
    · rw [he]
      exact hs.inbox i hi
    · intro id hd
      cases hn.symm.trans hd

theorem Shadow.env (hs : Shadow W a tr h h₁) {e : L} (he : sourceStep G e h h') :
    ∃ h₁', sourceStep G e h₁ h₁' ∧ Shadow W a (.env e :: tr) h' h₁' := by
  obtain ⟨b, messages, hb, hm, rfl⟩ := he
  rw [← hs.base] at hb hm
  exact ⟨_, ⟨b, messages, hb, hm, rfl⟩, rfl, fun i hi => (hs.inbox i hi).deliver messages⟩

variable (G W a) in
/-- A run, and the same run without process `a`. -/
structure Without (h₀ : Hub B) (tr : List (SseLabel Text L)) (s s₁ : SseConfig Text B) : Prop where
  run : Run (streams G W) (fun _ _ _ _ => True) (.idle h₀) (erase a tr) s₁
  shadow : Shadow W a tr s.world s₁.world
  absent : s₁.pool a = none
  pool : ∀ i, i ≠ a → s₁.pool i = s.pool i

section
variable {h₀ : Hub B} {s s' s₁ s₁' : SseConfig Text B}

theorem Without.skip (hw : Without G W a h₀ tr s s₁) (hl : mover l = some a)
    (hs : Shadow W a (l :: tr) s'.world s₁.world) (hp : ∀ i, i ≠ a → s'.pool i = s.pool i) :
    Without G W a h₀ (l :: tr) s' s₁ where
  run := by
    rw [erase, if_pos hl]
    exact hw.run
  shadow := hs
  absent := hw.absent
  pool i hi := (hw.pool i hi).trans (hp i hi).symm

theorem Without.keep (hw : Without G W a h₀ tr s s₁) (hl : mover l ≠ some a)
    (hs : (streams G W).Step s₁ l s₁') (hsh : Shadow W a (l :: tr) s'.world s₁'.world)
    (hn : s₁'.pool a = none) (hp : ∀ i, i ≠ a → s₁'.pool i = s'.pool i) :
    Without G W a h₀ (l :: tr) s' s₁' where
  run := by
    rw [erase, if_neg hl]
    exact .cons hw.run hs trivial
  shadow := hsh
  absent := hn
  pool := hp

/-- Process `j` goes on in both runs. -/
theorem Without.update (hw : Without G W a h₀ tr s s₁) (hj : j ≠ a)
    (x : Option (SseKind × Coro SseCmd (SseCmd.Answer Text) (Except Exc Streamed))) :
    Function.update s₁.pool j x a = none ∧
      ∀ i, i ≠ a → Function.update s₁.pool j x i = Function.update s.pool j x i := by
  refine ⟨by rw [Function.update_of_ne (Ne.symm hj), hw.absent], fun i hi => ?_⟩
  by_cases hij : i = j
  · rw [hij, Function.update_self, Function.update_self]
  · rw [Function.update_of_ne hij, Function.update_of_ne hij, hw.pool i hi]

theorem Without.step (hw : Without G W a h₀ tr s s₁) (hs : (streams G W).Step s l s')
    (ho : Obeys W (l :: tr)) (hok : unhindered W a tr s.world l s'.world) :
    ∃ s₁', Without G W a h₀ (l :: tr) s' s₁' := by
  have hne {j : Nat} (hj : j ≠ a) : some j ≠ some a := fun he => hj (Option.some.inj he)
  cases hs with
  | @answer j q c k r w l hp ha =>
    have hl : mover l = some j := by
      cases ha with
      | cmd _ | abort _ => rfl
    have hc : (phaseOf W j tr).sends c := by
      cases ha with
      | cmd _ | abort _ => exact ho
    by_cases hj : j = a
    · subst hj
      exact ⟨_, hw.skip hl (hw.shadow.skip ha hok) fun i hi => Function.update_of_ne hi ..⟩
    · obtain ⟨h₁', ha', hsh⟩ := hw.shadow.answer ha hc hj
      obtain ⟨hn, hp'⟩ := hw.update hj (some (q, k r))
      exact ⟨_, hw.keep (hl ▸ hne hj) (.answer ((hw.pool j hj).trans hp) ha') hsh hn hp'⟩
  | @spawn j q w hp hq =>
    obtain ⟨⟨id, rfl⟩, rfl⟩ := hq
    have hsh : Shadow W a (.spawn j (.stream id) :: tr) s.world s₁.world := by
      apply hw.shadow.quiet
      intro i _
      rw [phaseOf_spawn]
      split
      · exact .inr rfl
      · exact .inl rfl
    by_cases hj : j = a
    · subst hj
      exact ⟨_, hw.skip rfl hsh fun i hi => Function.update_of_ne hi ..⟩
    · obtain ⟨hn, hp'⟩ := hw.update hj (some (.stream id, (streams G W).body (.stream id)))
      exact ⟨_, hw.keep (hne hj) (.spawn ((hw.pool j hj).trans hp) ⟨⟨id, rfl⟩, rfl⟩) hsh hn hp'⟩
  | @exit j q b w o hp he =>
    obtain ⟨rfl, rfl⟩ := he
    have hsh : Shadow W a (.exit j q b :: tr) s.world s₁.world := by
      apply hw.shadow.quiet
      intro i _
      rcases phaseOf_exit ho i with he | ⟨-, he⟩
      · exact .inl he
      · rw [he]
        exact .inr rfl
    by_cases hj : j = a
    · subst hj
      exact ⟨_, hw.skip rfl hsh fun i hi => Function.update_of_ne hi ..⟩
    · obtain ⟨hn, hp'⟩ :=
        hw.update hj ((nextPoll q b).map fun q' => (q', (streams G W).body q'))
      exact ⟨_, hw.keep (hne hj) (.exit ((hw.pool j hj).trans hp) ⟨rfl, rfl⟩) hsh hn hp'⟩
  | env he =>
    obtain ⟨h₁', he', hsh⟩ := hw.shadow.env he
    exact ⟨_, hw.keep nofun (.env he') hsh hw.absent hw.pool⟩
  | halt hh =>
    obtain rfl := hh
    exact ⟨_, hw.keep nofun (.halt rfl) ⟨hw.shadow.base, fun i _ id hd => (by cases hd)⟩ rfl
      fun _ _ => rfl⟩

/-- The steps of one client can be taken out of a run beside any source. -/
theorem without_of_run (hr : Run (streams G W) (unhindered W a) (.idle h₀) tr s) :
    ∃ s₁, Without G W a h₀ tr s s₁ := by
  induction hr with
  | nil =>
    exact ⟨_, .nil, ⟨rfl, fun i _ id hd => (by cases hd)⟩, rfl, fun _ _ => rfl⟩
  | cons hr hs hok ih =>
    obtain ⟨s₁, hw⟩ := ih
    exact hw.step hs (obeys_of_run (.cons hr hs hok)) hok

end

/-- Without the steps of one client every other stream is as it was. -/
theorem isolation_law {S : Setup Event} {b₀ : SysConfig Text Event}
    {tr : List (SseLabel Text (SysLabel Text Event))} {s : SseConfig Text (SysConfig Text Event)}
    (hr : Run (server Text S W) (unhindered W a) (.idle (Hub.start b₀)) tr s) :
    Isolated S W b₀ a tr s := by
  obtain ⟨s₁, hw⟩ := without_of_run hr
  exact ⟨s₁, hw.run, hw.shadow.base, hw.absent, fun i hi => ⟨hw.pool i hi, framesOf_erase hi tr⟩⟩

end

/-- The label may publish a sentinel. -/
def closing : SseLabel Text (SysLabel Text Event) → Bool
  | .cmd _ (.publish ..) _ | .abort _ (.publish ..) _ => true
  | .env (.cmd _ (.publish ..) _) | .env (.abort _ (.publish ..) _) => true
  | _ => false

/-- A stream takes a sentinel. -/
def takesDone : SseLabel Text L → Bool
  | .cmd _ .getMessage (.ok (some msg)) => msg.data = doneMessage
  | _ => false

section
variable [TaskJson Text] {G : Source Text B L} {W : Wire} {i : Nat} {c : SseCmd}
  {r : c.Answer Text} {h h' : Hub B}

omit [TaskJson Text] in
/-- A command that publishes nothing brings no message. -/
theorem sseExec_queue (hx : sseExec G i c r h h') (hc : ∀ ch data, c ≠ .publish ch data)
    (j : Nat) : h'.queue j ⊆ h.queue j := by
  by_cases hj : i = j
  · subst hj
    cases c with
    | publish ch data => exact absurd rfl (hc ch data)
    | subscribe ch =>
      obtain ⟨-, rfl⟩ := hx
      rw [Hub.queue_eq (Function.update_self ..)]
      exact List.nil_subset _
    | unsubscribe ch =>
      obtain ⟨-, rfl⟩ := hx
      rw [Hub.queue_none (Function.update_self ..)]
      exact List.nil_subset _
    | getMessage =>
      obtain ⟨-, rfl⟩ | ⟨ch, data, rest, hin, -, rfl⟩ := hx
      · exact List.Subset.refl _
      · rw [Hub.queue_eq (Function.update_self ..), Hub.queue_eq hin]
        exact List.subset_cons_self ..
    | get _ | time | sleep | isDisconnected | send _ =>
      obtain ⟨-, rfl⟩ := hx
      exact List.Subset.refl _
  · have hn : c.publishes = [] := by
      cases c with
      | publish ch data => exact absurd rfl (hc ch data)
      | _ => rfl
    rw [Hub.queue, sseExec_inbox hx hj, hn, Hub.deliver_nil]
    exact List.Subset.refl _

omit [TaskJson Text] in
theorem mem_queue_deliver {messages : List (String × String)} {data : String}
    (hm : data ∈ (h.deliver messages).queue i) :
    data ∈ h.queue i ∨ ∃ ch, (ch, data) ∈ messages := by
  rw [Hub.queue, Hub.deliver_inbox] at hm
  cases hin : h.inbox i with
  | none =>
    rw [hin] at hm
    cases hm
  | some o =>
    rw [hin, Option.map_some, Option.elim_some] at hm
    rw [Hub.queue, hin, Option.elim_some]
    rcases List.mem_append.1 hm with hm | hm
    · exact .inl hm
    · obtain ⟨m, hmem, rfl⟩ := List.mem_map.1 hm
      exact .inr ⟨m.1, List.mem_of_mem_filter hmem⟩

/-- As long as nobody closes a task, no sentinel is on its way, and none has been taken. -/
theorem no_sentinel {S : Setup Event} {b₀ : SysConfig Text Event}
    {ok : StepFilter SseCmd (SseCmd.Answer Text) (Except Exc Streamed)
      (Hub (SysConfig Text Event)) SseKind (SysLabel Text Event)}
    {tr : List (SseLabel Text (SysLabel Text Event))} {s : SseConfig Text (SysConfig Text Event)}
    (henc : ∀ ev, S.encode ev ≠ .ok doneMessage)
    (hr : Run (server Text S W) ok (.idle (Hub.start b₀)) tr s)
    (hc : ∀ l ∈ tr, closing l = false) :
    (∀ i, doneMessage ∉ s.world.queue i) ∧ ∀ l ∈ tr, takesDone l = false := by
  induction hr with
  | nil =>
    refine ⟨fun i => ?_, List.forall_mem_nil _⟩
    rw [Hub.queue_none rfl]
    exact List.not_mem_nil
  | @cons tr s l s' hr hs hok ih =>
    obtain ⟨hq, ht⟩ := ih fun l hl => hc l (List.mem_cons_of_mem _ hl)
    have hl : closing l = false := hc l (List.mem_cons_self ..)
    have htaken (h : takesDone l = false) : ∀ l' ∈ l :: tr, takesDone l' = false :=
      List.forall_mem_cons.2 ⟨h, ht⟩
    cases hs with
    | @answer j q c k r w l hp ha =>
      have hpub (ch data : String) : c ≠ .publish ch data := by
        rintro rfl
        cases ha <;> cases hl
      cases ha with
      | cmd hx =>
        refine ⟨fun i hm => hq i (sseExec_queue hx hpub i hm), htaken ?_⟩
        cases c with
        | getMessage =>
          obtain ⟨rfl, -⟩ | ⟨ch, data, rest, hin, rfl, -⟩ := hx
          · rfl
          · apply decide_eq_false
            rintro rfl
            apply hq j
            rw [Hub.queue_eq hin]
            exact List.mem_cons_self ..
        | _ => rfl
      | abort hx =>
        refine ⟨fun i hm => hq i ?_, htaken rfl⟩
        obtain ⟨-, e, -, -, rfl | ⟨a, hx⟩⟩ := hx
        · exact hm
        · exact sseExec_queue hx hpub i hm
    | spawn _ hs =>
      obtain ⟨-, rfl⟩ := hs
      exact ⟨hq, htaken rfl⟩
    | exit _ he =>
      obtain ⟨rfl, -⟩ := he
      exact ⟨hq, htaken rfl⟩
    | @env e w he =>
      obtain ⟨b, messages, hb, hm, rfl⟩ := he
      obtain ⟨messages', hp, hm'⟩ := step_published hb
      obtain rfl : messages = messages' := List.append_cancel_left (hm.symm.trans hm')
      refine ⟨fun i hmem => ?_, htaken rfl⟩
      rcases mem_queue_deliver hmem with hmem | ⟨ch, hmem⟩
      · exact hq i hmem
      · cases hp with
        | nothing _ => cases hmem
        | command _ _ _ _ | cut _ _ _ _ => cases hl
        | event n _ he =>
          obtain ⟨rfl, rfl⟩ := Prod.mk.inj (List.mem_singleton.1 hmem)
          exact henc _ he
    | halt hh =>
      obtain rfl := hh
      refine ⟨fun i => ?_, htaken rfl⟩
      rw [Hub.queue_none rfl]
      exact List.not_mem_nil

end

/-! A deployment whose engine yields events, and two streams of one task. -/

def verdictSetup : Setup Bool where
  settings := demo.settings
  sha256 := id
  repr s := "'" ++ s ++ "'"
  reprFloat q := toString q.num ++ ".0"
  encode terminal := .ok ((verdictEvent terminal).text verdictWire)

theorem verdictSetup_encode (terminal : Bool) :
    verdictSetup.encode terminal ≠ .ok doneMessage := by
  intro he
  obtain ⟨e, hdone⟩ := verdictWire_done
  have hloads := verdictWire_loads terminal
  rw [Except.ok.inj he, hdone] at hloads
  cases hloads

theorem unhindered_iff [TaskJson Text] {W : Wire} {a : Nat} {tr : List (SseLabel Text L)}
    {h h' : Hub B} {l : SseLabel Text L} : unhindered W a tr h l h' ↔
      (mover l = some a → ∀ i ∈ Monitor.actors tr, i ≠ a → ∀ id ∈ (phaseOf W i tr).subscribed,
        (phaseOf W i tr).fate W (h.queue i) = none → h'.queue i = h.queue i) := by
  refine ⟨fun hu hl i _ => hu hl i, fun hu hl i => ?_⟩
  by_cases hi : i ∈ Monitor.actors tr
  · exact hu hl i hi
  · rw [phaseOf_of_not_mem hi]
    exact fun _ => nofun

instance [TaskJson Text] (W : Wire) (a : Nat) (tr : List (SseLabel Text L))
    (h : Hub B) (l : SseLabel Text L) (h' : Hub B) : Decidable (unhindered W a tr h l h') :=
  have (o : Option Ending) : Decidable (o = none) := decidable_of_iff _ Option.isNone_iff_eq_none
  decidable_of_iff _ unhindered_iff.symm

/-- A task whose engine is at work, in thread 0, and is going to yield a terminal event. -/
def taskToEvent : List (Choice (Hint Bool) Kind Tick) :=
  [.spawn 0 .recover, .cmd 0 .auto, .exit 0, .spawn 1 (.request demoRequest)] ++
    List.replicate 9 (.cmd 1 .auto) ++ [.exit 1, .spawn 2 .worker] ++
    List.replicate 9 (.cmd 2 .auto) ++ [.cmd 2 (.yields ⟨[true], .ok ()⟩), .cmd 2 .auto,
      .env (.threadStart 0)]

/-- Stream 0 relays the terminal event, up to its own close. -/
def relayed : ServerSchedule Bool := work [.env (.threadPublish 0)] ++ attend 0 4

/-- Two streams that are both there before the event. -/
def together : ServerSchedule Bool :=
  work taskToEvent ++ look 0 "u" ++ listen 0 ++ look 1 "u" ++ listen 1 ++ relayed ++ attend 0 1 ++
    attend 1 6

/-- Stream 1 comes between the event and the close of stream 0. -/
def between : ServerSchedule Bool :=
  work taskToEvent ++ look 0 "u" ++ listen 0 ++ relayed ++ look 1 "u" ++ listen 1 ++ attend 0 1 ++
    attend 1 3

theorem isolation_law_together : ∃ tr s,
    Run (server Task verdictSetup verdictWire) (unhindered verdictWire 0)
      (.idle (Hub.start (.idle .init))) tr s ∧
    framesOf 0 tr = [.event ((verdictEvent true).frame verdictWire)] ∧
    streamed 1 s = some .ended ∧
    Isolated verdictSetup verdictWire (.idle .init) 0 tr s := by
  obtain ⟨tr, s, hr, ho⟩ := (serverStepper (driver verdictSetup) verdictWire).observe
    (unhindered verdictWire 0) (.idle (Hub.start (.idle .init))) together
    (fun o => some (framesOf 0 o.1, streamed 1 o.2))
    (show _ = some ([Frame.event ((verdictEvent true).frame verdictWire)], some Streamed.ended) by
      decide)
  obtain ⟨hf, hs⟩ := Prod.mk.inj (Option.some.inj ho)
  exact ⟨tr, s, hr, hf, hs, isolation_law hr⟩

theorem not_isolation_law : ¬∀ tr s,
    Run (server Task verdictSetup verdictWire) (fun _ _ _ _ => True)
      (.idle (Hub.start (.idle .init))) tr s →
    Isolated verdictSetup verdictWire (.idle .init) 0 tr s := by
  intro h
  obtain ⟨tr, s, hr, ho⟩ := (serverStepper (driver verdictSetup) verdictWire).observe
    (fun _ _ _ _ => True) (.idle (Hub.start (.idle .init))) between
    (fun o => some ((erase 0 o.1).all fun l => !closing l, (erase 0 o.1).any takesDone))
    (show _ = some (true, true) by decide)
  obtain ⟨hc, ht⟩ := Prod.mk.inj (Option.some.inj ho)
  obtain ⟨s', hr', -⟩ := h tr s hr
  obtain ⟨l, hl, hdone⟩ := List.any_eq_true.1 ht
  have hquiet (l : SseLabel Task (SysLabel Task Bool)) (hl : l ∈ erase 0 tr) :
      closing l = false := by
    have hb := List.all_eq_true.1 hc l hl
    rwa [Bool.not_eq_true'] at hb
  cases ((no_sentinel verdictSetup_encode hr' hquiet).2 l hl).symm.trans hdone

end Orchestrator
