import Orchestrator.Holding
import Orchestrator.Recovery
import Orchestrator.Concurrency.Custody
import Orchestrator.Concurrency.Monitor

namespace Orchestrator
open Concurrency Async Progress
set_option autoImplicit true

/-- No process crashes. -/
def crashFree : Filter Text Event := fun _ _ l _ =>
  match l with
  | .halt => False
  | _ => True

instance (tr : List (SysLabel Text Event)) (w : World Text Event) (l : SysLabel Text Event)
    (w' : World Text Event) : Decidable (crashFree tr w l w') :=
  match l with
  | .halt => isFalse not_false
  | .cmd .. | .abort .. | .spawn .. | .exit .. | .env _ => isTrue trivial

/-- The process that calls `_stream` with this label. -/
def streamStart : SysLabel Text Event → Option Nat
  | .cmd i (.iterEvents ..) _ => some i
  | _ => none

/-- The process that meets a `RetriableError` with this label, be it the engine's or its own for a
stolen lock. -/
def retriableError : SysLabel Text Event → Option Nat
  | .cmd i (.iterEvents ..) (.error e) | .cmd i (.awaitFuture ..) (.error e) =>
    if e.cls = .retriable then some i else none
  | .cmd i (.log (.lockStolen ..)) _ => some i
  | _ => none

/-- Is the process in `_handle_retriable`, and has not written the task yet? -/
def handling : Monitor (Cmd Text Event) Cmd.Answer Bool where
  init := false
  cmd d c r :=
    match c, r with
    | .iterEvents .., .error e | .awaitFuture .., .error e => e.cls = .retriable
    | .log (.lockStolen ..), _ => true
    | .set .., _ => false
    | _, _ => d
  abort d c _ :=
    match c with
    | .set .. | .publish .. => false
    | _ => d

/-- The process that writes a record with this label, and the record. -/
def writes : SysLabel Text Event → Option (Nat × Text)
  | .cmd i (.set _ x) _ | .abort i (.set _ x) _ => some (i, x)
  | _ => none

/-- A command counts for the process that has sent it. -/
theorem counts_cmd {i : Nat} {c : Cmd Text Event} {r : c.Answer} (j : Nat)
    (h : streamStart (.cmd i c r : SysLabel Text Event) = some j ∨
      retriableError (.cmd i c r : SysLabel Text Event) = some j) : j = i := by
  have hif {P : Prop} [Decidable P] (h : (if P then some i else none) = some j) : j = i := by
    split at h
    · exact (Option.some.inj h).symm
    · cases h
  rcases h with h | h
  · cases c with
    | iterEvents _ _ _ => exact (Option.some.inj h).symm
    | _ => cases h
  · cases c with
    | iterEvents _ _ _ | awaitFuture _ _ =>
      rcases r with e | _
      · exact hif h
      · cases h
    | log line =>
      cases line with
      | lockStolen _ _ => exact (Option.some.inj h).symm
      | lockBusy _ _ => cases h
    | _ => cases h

theorem not_abort {c : Cmd Text Event} {r : c.Answer} {w w' : World Text Event}
    (hw : c.awaited = false) (hr : c.onRedis = false) : ¬abort c r w w' := by
  rintro ⟨e, _, ⟨h, _⟩ | ⟨h, _⟩, _⟩
  · rw [hw] at h
    cases h
  · rw [hr] at h
    cases h

section
variable [TaskJson Text]

theorem writes_answer {S : Setup Event} {sp : Kind → World Text Event → World Text Event → Prop}
    {ex : Kind → Except Exc Returned → World Text Event → World Text Event → Option Kind → Prop}
    {c : Cmd Text Event} {r : c.Answer} {w w' : World Text Event} {l : SysLabel Text Event}
    {i j : Nat} {x : Text} (ha : (orchestrator Text S sp ex).Answer j c r w w' l)
    (hw : writes l = some (i, x)) : i = j ∧ ∃ id, c = .set id x := by
  cases ha with
  | cmd _ | abort _ =>
    cases c with
    | set id y =>
      cases hw
      exact ⟨rfl, id, rfl⟩
    | _ => cases hw

/-- How many such labels came from processes that were executing the task. -/
def tally (f : SysLabel Text Event → Option Nat) (id : String) : List (SysLabel Text Event) → Nat
  | [] => 0
  | l :: tr =>
    match f l with
    | some i => if executing i tr = some id then tally f id tr + 1 else tally f id tr
    | none => tally f id tr

/-- What limits the retries of a task. -/
structure RetryLaw (S : Setup Event) (tr : List (SysLabel Text Event)) (s : SysConfig Text Event) :
    Prop where
  started : ∀ id, (tally streamStart id tr : Int) ≤ S.settings.maxRetries + 1
  stored : ∀ id t, s.world.redis.record id = some t →
    (t.retryCount : Int) ≤ S.settings.maxRetries ∧ tally streamStart id tr ≤ t.retryCount + 1
  grows : ∀ l s' id t t', (system Text S).Step s l s' → crashFree tr s.world l s'.world →
    s.world.redis.record id = some t → s'.world.redis.record id = some t' →
    t.retryCount ≤ t'.retryCount
  gaveUp : ∀ l tr' i x t, l :: tr' <:+ tr → writes l = some (i, x) → parse x = some t →
    handling.read i tr' = true → t.status = .failed →
    (tally retriableError t.taskId tr' : Int) = S.settings.maxRetries + 1

namespace Progress

/-- The task that the process executes, from the queue on. -/
def work : Progress → Option Task
  | .taken t | .locked t | .running t | .started t | .streaming t _ | .streamed t | .failed t _
  | .retrying t | .finishing t => some t
  | _ => none

/-- What the monitor `handling` reads of a process. -/
def handles : Progress → Bool
  | .failed _ cls => cls = .retriable
  | .retrying _ => true
  | _ => false

end Progress

theorem Move.work {S : Setup Event} {c : Cmd Text Event} {r : c.Answer} (hm : Move S d c r d')
    (hc : c ≠ .brpop) (hu : d'.work = some u) :
    (∃ t, d.work = some t ∧ u.taskId = t.taskId) ∧ ∀ x, c ≠ .lpush x := by
  have hnone {t : Task} {g : Progress} {r : Except Exc Unit} (hg : g.work = some t)
      (h : (settle r g fun _ => .idle).work = some u) : t = u := by
    rcases settle_some h with h | ⟨e, h⟩
    · exact Option.some.inj (hg.symm.trans h)
    · cases h
  have hidle {g : Progress} {r : Except Exc Unit} {f : Exc → Progress} (hg : g.work = none)
      (hf : ∀ e, (f e).work = none) (h : (settle r g f).work = some u) : False := by
    rcases settle_some h with h | ⟨e, h⟩
    · cases hg.symm.trans h
    · cases (hf e).symm.trans h
  have hfinished {v : Task} {r : Except Exc Unit} {f : Exc → Progress}
      (h : (settle r (finished v) f).work = some u) : u = v ∨ ∃ e, (f e).work = some u := by
    refine (settle_some h).imp_left fun h => ?_
    unfold finished at h
    split at h
    · cases h
    · exact (Option.some.inj h).symm
  cases hm with
  | background hb =>
    refine ⟨⟨u, hu, rfl⟩, ?_⟩
    rintro x rfl
    cases hb
  | pop _ | popNothing _ => exact absurd rfl hc
  | read _ _ | requeue _ | requeueMarked | queue | leave | close | closeHalted => cases hu
  | store _ _ =>
    rcases granted_some rfl hu with h | h <;> cases h
  | mark _ _ _ | register _ | halt _ _ | retry _ _ _ _ => exact (hidle rfl (fun _ => rfl) hu).elim
  | index => exact (hidle (entered_eq rfl rfl) (fun _ => rfl) hu).elim
  | acquire =>
    rcases granted_some rfl hu with h | h
    · exact ⟨⟨u, h, rfl⟩, nofun⟩
    · cases h
  | run hv _ =>
    obtain rfl := hnone rfl hu
    exact ⟨⟨_, rfl, hv.1.1⟩, nofun⟩
  | reject hv _ | fail _ hv _ | abandon _ hv _ =>
    rcases hfinished hu with rfl | ⟨e, h⟩
    · exact ⟨⟨_, rfl, hv.1.1⟩, nofun⟩
    · cases h
  | succeed hv _ =>
    rcases hfinished hu with rfl | ⟨e, h⟩
    · exact ⟨⟨_, rfl, hv.1.1⟩, nofun⟩
    · obtain rfl := Option.some.inj h
      exact ⟨⟨_, rfl, hv.1.1⟩, nofun⟩
  | start =>
    rcases settle_some hu with h | ⟨e, h⟩ <;> exact ⟨⟨u, h, rfl⟩, nofun⟩
  | launch | stolen => exact ⟨⟨u, hu, rfl⟩, nofun⟩
  | hangUp => exact ⟨⟨u, congrArg some (hnone rfl hu), rfl⟩, nofun⟩
  | wait =>
    refine ⟨⟨u, ?_, rfl⟩, nofun⟩
    rcases settle_some hu with h | ⟨e, h⟩
    · exact h
    · exact (cutShort_eq fun _ => rfl).symm.trans h
  | clear =>
    refine ⟨⟨u, ?_, rfl⟩, nofun⟩
    rcases settle_some hu with h | ⟨e, h⟩
    · cases h
    · unfold unclear at h
      split at h
      · exact h
      · cases h

theorem handling_move {S : Setup Event} {c : Cmd Text Event} {r : c.Answer} (hm : Move S d c r d') :
    (∀ w w', exec c r w w' → handling.cmd d.handles c r = d'.handles) ∧
      (∀ e, r = .error e → e.cls ≠ .retriable → handling.abort d.handles c r = d'.handles) := by
  have hfalse (hc : handling.cmd d.handles c r = false) (ha : handling.abort d.handles c r = false)
      (hd : d'.handles = false) :
      (∀ w w', exec c r w w' → handling.cmd d.handles c r = d'.handles) ∧
        ∀ e, r = .error e → e.cls ≠ .retriable → handling.abort d.handles c r = d'.handles :=
    ⟨fun _ _ _ => hc.trans hd.symm, fun _ _ _ => ha.trans hd.symm⟩
  cases hm with
  | background hb =>
    cases c with
    | set _ _ | publish _ _ | iterEvents _ _ _ | awaitFuture _ _ => cases hb
    | log line =>
      cases line with
      | lockStolen _ _ => cases hb
      | lockBusy _ _ => exact ⟨fun _ _ _ => rfl, fun _ _ _ => rfl⟩
    | _ => exact ⟨fun _ _ _ => rfl, fun _ _ _ => rfl⟩
  | store _ _ | acquire => exact hfalse rfl rfl (granted_eq rfl rfl rfl)
  | index => exact hfalse rfl rfl (settle_eq (entered_eq rfl rfl) fun _ => rfl)
  | reject _ _ | fail _ _ _ | abandon _ _ _ =>
    exact hfalse rfl rfl (settle_eq (finished_eq rfl rfl) fun _ => rfl)
  | mark _ _ _ | register _ | run _ _ | halt _ _ | retry _ _ _ _ =>
    exact hfalse rfl rfl (settle_eq rfl fun _ => rfl)
  | start =>
    rename_i r
    rcases r with e | it
    · exact ⟨fun _ _ _ => rfl, fun _ he hn => by cases he; exact (decide_eq_false hn).symm⟩
    · exact hfalse rfl rfl rfl
  | wait =>
    rename_i r
    rcases r with e | _
    · have hcut (t : Task) : (cutShort t e).handles = decide (e.cls = .retriable) := by
        unfold cutShort
        split
        · rename_i he
          rw [he]
          rfl
        · rfl
      refine ⟨fun _ _ _ => (hcut _).symm, fun _ he hn => ?_⟩
      cases he
      exact (decide_eq_false hn).symm.trans (hcut _).symm
    · exact hfalse rfl rfl rfl
  | succeed hv hs =>
    rename_i r
    rcases r with e | _
    · refine ⟨fun _ _ hx => ?_, fun _ he hn => ?_⟩
      · cases hx.1
      · cases he
        exact (decide_eq_false hn).symm
    · exact hfalse rfl rfl (finished_eq rfl rfl)
  | clear =>
    rename_i r
    rcases r with e | _
    · have hun (t : Task) (hn : e.cls ≠ .retriable) : (unclear t e).handles = false := by
        unfold unclear
        split
        · exact decide_eq_false hn
        · rfl
      refine ⟨fun _ _ hx => ?_, fun _ he hn => ?_⟩
      · cases hx.1
      · cases he
        exact (hun _ hn).symm
    · exact hfalse rfl rfl rfl
  | hangUp =>
    rename_i r
    rcases r with e | _
    · refine ⟨fun _ _ hx => ?_, fun _ _ _ => rfl⟩
      cases hx.1
    · exact ⟨fun _ _ _ => rfl, nofun⟩
  | stolen => exact ⟨fun _ _ _ => rfl, nofun⟩
  | _ => exact hfalse rfl rfl rfl

theorem taken_cmd {i j : Nat} {c : Cmd Text Event} {r : c.Answer} (hb : c ≠ .brpop)
    (hp : ∀ x, c ≠ .lpush x) : taken i (.cmd j c r : SysLabel Text Event) = none := by
  cases c with
  | brpop => exact absurd rfl hb
  | lpush x => exact absurd rfl (hp x)
  | _ => rfl

theorem executing_cons {i : Nat} {l : SysLabel Text Event} (h : taken i l = none)
    (tr : List (SysLabel Text Event)) : executing i (l :: tr) = executing i tr := by
  rw [executing, h, Option.getD_none]

/-- The labels tell who executes what, and who is in `_handle_retriable`. -/
structure Annotated (tr : List (SysLabel Text Event)) (ds : Nat → Progress) : Prop where
  executes : ∀ i t, (ds i).work = some t → executing i tr = some t.taskId
  follows : (handling : Monitor (Cmd Text Event) Cmd.Answer _).Follows Progress.handles tr ds

namespace Annotated
variable {tr : List (SysLabel Text Event)} {ds : Nat → Progress} {l : SysLabel Text Event}
  {i : Nat} {d : Progress}

theorem update (h : Annotated tr ds) (hj : ∀ j, j ≠ i → executing j (l :: tr) = executing j tr)
    (hd : ∀ t, d.work = some t → executing i (l :: tr) = some t.taskId)
    (hf : (handling : Monitor (Cmd Text Event) Cmd.Answer _).Follows Progress.handles (l :: tr)
      (Function.update ds i d)) : Annotated (l :: tr) (Function.update ds i d) := by
  refine ⟨fun j t ht => ?_, hf⟩
  by_cases hji : j = i
  · rw [hji, Function.update_self] at ht
    rw [hji]
    exact hd t ht
  · rw [Function.update_of_ne hji] at ht
    rw [hj j hji]
    exact h.executes j t ht

theorem move {S : Setup Event} {c : Cmd Text Event} {r : c.Answer} {w w' : World Text Event}
    (h : Annotated tr ds) (ha : (orchestrator Text S sp ex).Answer i c r w w' l)
    (hm : Move S (ds i) c r d) : Annotated (l :: tr) (Function.update ds i d) := by
  have hf : (handling : Monitor (Cmd Text Event) Cmd.Answer _).Follows Progress.handles (l :: tr)
      (Function.update ds i d) := by
    obtain ⟨hcmd, habort⟩ := handling_move hm
    refine h.follows.answer ha (fun hx => hcmd w w' hx) ?_
    rintro ⟨e, he, hc, _⟩
    refine habort e he fun hr => ?_
    rcases hc with ⟨_, hc⟩ | ⟨_, hc⟩
    · rw [hr] at hc
      cases hc
    · rw [hr] at hc
      cases hc
  have hj (j : Nat) (hji : j ≠ i) : executing j (l :: tr) = executing j tr := by
    cases ha with
    | cmd _ => exact executing_local (local_cmd i c r) hji tr
    | abort _ => exact executing_cons rfl tr
  refine h.update hj (fun t ht => ?_) hf
  by_cases hb : c = .brpop
  · subst hb
    generalize ds i = d₀ at hm
    cases hm with
    | background hc => cases hc
    | popNothing _ => cases ht
    | pop hx =>
      cases ha with
      | cmd _ =>
        obtain rfl := Option.some.inj ht
        simp only [executing, taken, ↓reduceIte, hx, Option.map_some, Option.getD_some]
      | abort hr =>
        obtain ⟨e, he, _⟩ := hr
        cases he
  · obtain ⟨⟨u, hu, he⟩, hp⟩ := hm.work hb ht
    have hl : taken i l = none := by
      cases ha with
      | cmd _ => exact taken_cmd hb hp
      | abort _ => rfl
    rw [executing_cons hl, h.executes i u hu, he]

/-- A process without a task comes or goes. -/
theorem change (h : Annotated tr ds) (hl : ∀ j, j ≠ i → taken j l = none) (hd : d.work = none)
    (hf : (handling : Monitor (Cmd Text Event) Cmd.Answer _).Follows Progress.handles (l :: tr)
      (Function.update ds i d)) : Annotated (l :: tr) (Function.update ds i d) :=
  h.update (fun j hj => executing_cons (hl j hj) tr) (fun _ ht => by cases hd.symm.trans ht) hf

end Annotated

theorem tally_none {f : SysLabel Text Event → Option Nat} {l : SysLabel Text Event} (h : f l = none)
    (id : String) (tr : List (SysLabel Text Event)) : tally f id (l :: tr) = tally f id tr := by
  rw [tally, h]

theorem tally_self {f : SysLabel Text Event → Option Nat} {l : SysLabel Text Event} {id : String}
    (h : f l = some i) {tr : List (SysLabel Text Event)} (he : executing i tr = some id) :
    tally f id (l :: tr) = tally f id tr + 1 := by
  simp only [tally, h, he, ↓reduceIte]

theorem tally_other {f : SysLabel Text Event → Option Nat} {l : SysLabel Text Event}
    {id id' : String} (h : f l = some i) {tr : List (SysLabel Text Event)}
    (he : executing i tr = some id') (hid : id ≠ id') : tally f id (l :: tr) = tally f id tr := by
  simp only [tally, h, he, Option.some.injEq, Ne.symm hid, ↓reduceIte]

theorem tally_if {f : SysLabel Text Event → Option Nat} {l : SysLabel Text Event} {id : String}
    {P : Prop} [Decidable P] (h : f l = if P then some i else none)
    {tr : List (SysLabel Text Event)} (he : executing i tr = some id) :
    tally f id (l :: tr) = tally f id tr + if P then 1 else 0 := by
  split at h
  · rename_i hp
    rw [tally_self h he, if_pos hp]
  · rename_i hp
    rw [tally_none h, if_neg hp, Nat.add_zero]

theorem tally_ne {f : SysLabel Text Event → Option Nat} {l : SysLabel Text Event} {id id' : String}
    (h : ∀ j, f l = some j → j = i) {tr : List (SysLabel Text Event)}
    (he : executing i tr = some id') (hid : id ≠ id') : tally f id (l :: tr) = tally f id tr := by
  cases hf : f l with
  | none => exact tally_none hf id tr
  | some j =>
    obtain rfl := h j hf
    exact tally_other hf he hid

/-- The id of a task and its number of retries. -/
def Task.tag (t : Task) : String × Nat := (t.taskId, t.retryCount)

def Redis.tags (r : Redis Text) (id : String) : Option (String × Nat) :=
  (r.record id).map fun t => (id, t.retryCount)

theorem Redis.tags_set_dump (r : Redis Text) (t : Task) :
    (r.set t.taskId (modelDumpJson t)).tags = Function.update r.tags t.tag.1 (some t.tag) := by
  funext id
  rw [tags, record_set_dump]
  by_cases hid : id = t.taskId
  · subst hid
    rw [Function.update_self, Task.tag, Function.update_self]
    rfl
  · rw [Function.update_of_ne hid, Task.tag, Function.update_of_ne hid]
    rfl

namespace Progress

/-- How many streams of the task in hand may have been started beyond its retries. -/
def extra : Progress → Nat
  | .started _ | .streaming .. | .streamed _ | .failed .. | .retrying _ | .finishing _ | .closing _
  | .halting _ => 1
  | _ => 0

/-- How many errors the task in hand has met beyond its retries, as long as they are counted. -/
def slipped : Progress → Option Nat
  | .stored _ | .indexed _ | .queueing _ | .taken _ | .locked _ | .running _ | .started _
  | .streaming .. | .streamed _ => some 0
  | .failed _ cls => some (if cls = .retriable then 1 else 0)
  | .retrying _ => some 1
  | .finishing t => if t.status = .success then some 0 else none
  | _ => none

end Progress

theorem Progress.slipped_cutShort {t : Task} {e : Exc} :
    (cutShort t e).slipped = some (if e.cls = .retriable then 1 else 0) := by
  unfold cutShort
  split
  · rename_i he
    rw [he]
    rfl
  · rfl

/-- A process that has task `u` after a move that is not counted. -/
def Keeps (d d' : Progress) (u : Task) : Prop :=
  ∀ v, d'.task = some v → v = u ∧ d.extra ≤ d'.extra ∧
    ∀ k, d'.slipped = some k → d.slipped = some k

namespace Keeps
variable {d d' : Progress} {u : Task}

theorem none (h : d'.task = .none) : Keeps d d' u := by
  intro v hv
  cases h.symm.trans hv

theorem of (h : d'.task = some u) (he : d.extra ≤ d'.extra)
    (hs : ∀ k, d'.slipped = some k → d.slipped = some k) : Keeps d d' u := by
  intro v hv
  exact ⟨Option.some.inj (hv.symm.trans h), he, hs⟩

theorem settle {r : Except Exc α} {f : Exc → Progress} (hg : Keeps d d' u)
    (hf : ∀ e, r = .error e → Keeps d (f e) u) : Keeps d (settle r d' f) u := by
  cases r with
  | ok a => exact hg
  | error e => exact hf e rfl

theorem finished (he : d.extra ≤ 1)
    (hs : ∀ k, (Progress.finishing u).slipped = some k → d.slipped = some k) :
    Keeps d (finished u) u := by
  unfold Progress.finished
  split
  · exact of rfl he nofun
  · exact of rfl he hs

end Keeps

/-- What a process may have done with a task that it has in hand. -/
structure Spent (tr : List (SysLabel Text Event)) (d : Progress) (t : Task) : Prop where
  started : tally streamStart t.taskId tr ≤ t.retryCount + d.extra
  slipped : ∀ k, d.slipped = some k → tally retriableError t.taskId tr = t.retryCount + k

/-- The counts of a task do not differ. -/
def Same (l : SysLabel Text Event) (tr : List (SysLabel Text Event)) (id : String) : Prop :=
  tally streamStart id (l :: tr) = tally streamStart id tr ∧
    tally retriableError id (l :: tr) = tally retriableError id tr

theorem Spent.same {l : SysLabel Text Event} {tr : List (SysLabel Text Event)} {d : Progress}
    {t : Task} (h : Spent tr d t) (hs : Same l tr t.taskId) : Spent (l :: tr) d t :=
  ⟨hs.1 ▸ h.started, fun k hk => hs.2 ▸ h.slipped k hk⟩

theorem Spent.mono {tr : List (SysLabel Text Event)} {d d' : Progress} {t u : Task}
    (h : Spent tr d t) (ht : u.tag = t.tag) (he : d.extra ≤ d'.extra)
    (hs : ∀ k, d'.slipped = some k → d.slipped = some k) : Spent tr d' u := by
  obtain ⟨hid, hn⟩ := Prod.mk.inj ht
  refine ⟨?_, fun k hk => ?_⟩
  · rw [hid, hn]
    exact h.started.trans (Nat.add_le_add_left he _)
  · rw [hid, hn]
    exact h.slipped k (hs k hk)

theorem same_of_none {l : SysLabel Text Event} (h : streamStart l = none)
    (h' : retriableError l = none) (tr : List (SysLabel Text Event)) (id : String) :
    Same l tr id := ⟨tally_none h id tr, tally_none h' id tr⟩

/-- Streams and errors of a task are counted by its retries, wherever its one copy is. -/
structure Counted (S : Setup Event) (tr : List (SysLabel Text Event)) (w : World Text Event)
    (ds : Nat → Progress) : Prop where
  custody : Custody Prod.fst (fun _ => True) (fun _ => True) w.redis.tags
    (w.redis.queued.map Task.tag) fun i => (ds i).task.map Task.tag
  stages : Stages w.stage (Progress.hold ∘ ds)
  fresh : w.stage = .serving ∨ w.redis.tasks = ∅
  unseen : ∀ id, w.redis.record id = none →
    tally streamStart id tr = 0 ∧ tally retriableError id tr = 0
  stored : ∀ id t, w.redis.record id = some t → (t.retryCount : Int) ≤ S.settings.maxRetries ∧
    tally streamStart id tr ≤ t.retryCount + 1
  queued : ∀ t ∈ w.redis.queued, Spent tr (.queueing t) t
  inHand : ∀ i t, (ds i).task = some t → Spent tr (ds i) t

namespace Counted
variable {S : Setup Event} {tr : List (SysLabel Text Event)} {w w' : World Text Event}
  {ds : Nat → Progress} {l : SysLabel Text Event} {i : Nat} {d : Progress} {t u : Task}

theorem own (ht : (ds i).task = some t) : (ds i).task.map Task.tag = some t.tag := by
  rw [ht, Option.map_some]

theorem record (h : Counted S tr w ds) (ht : (ds i).task = some t) :
    ∃ u, w.redis.record t.taskId = some u ∧ u.retryCount = t.retryCount := by
  obtain ⟨u, hu, he⟩ := Option.map_eq_some_iff.1 (h.custody.owned (own ht))
  exact ⟨u, hu, congrArg Prod.snd he⟩

theorem bounded (h : Counted S tr w ds) (ht : (ds i).task = some t) :
    (t.retryCount : Int) ≤ S.settings.maxRetries := by
  obtain ⟨u, hu, he⟩ := h.record ht
  rw [← he]
  exact (h.stored _ u hu).1

theorem not_recovering {id : String} (h : Counted S tr w ds) (ht : w.redis.record id = some t) :
    (ds i).stage ≠ some .recovering := by
  intro hs
  have hst := h.stages.now i .recovering (by rw [Function.comp_apply, stage_hold, hs])
  rcases h.fresh with hf | hf
  · rw [hst] at hf
    cases hf
  · rw [Redis.record, hf] at ht
    cases ht

/-- Another copy is one of another task. -/
theorem ne_inHand (h : Counted S tr w ds) (ht : (ds i).task = some t) (hj : j ≠ i)
    (hu : (ds j).task = some u) : u.taskId ≠ t.taskId :=
  fun he => hj (h.custody.unique j i _ _ (own hu) (own ht) he)

theorem ne_queued (h : Counted S tr w ds) (ht : (ds i).task = some t) (hu : u ∈ w.redis.queued) :
    u.taskId ≠ t.taskId := by
  intro he
  apply (h.custody.owner i _ (own ht)).2.2
  rw [List.map_map]
  exact List.mem_map.2 ⟨u, hu, he⟩

/-- A step after which process `i` is elsewhere. -/
theorem step (h : Counted S tr w ds)
    (hc : Custody Prod.fst (fun _ => True) (fun _ => True) w'.redis.tags
      (w'.redis.queued.map Task.tag) (Function.update (fun j => (ds j).task.map Task.tag) i
        (d.task.map Task.tag)))
    (hs : Stages w'.stage (Progress.hold ∘ Function.update ds i d))
    (hf : w'.stage = .serving ∨ w'.redis.tasks = ∅)
    (hn : ∀ id, w'.redis.record id = none → w.redis.record id = none ∧ Same l tr id)
    (hr : ∀ id u, w'.redis.record id = some u → w.redis.record id = some u ∧ Same l tr id ∨
      (u.retryCount : Int) ≤ S.settings.maxRetries ∧
        tally streamStart id (l :: tr) ≤ u.retryCount + 1)
    (hq : ∀ u ∈ w'.redis.queued, u ∈ w.redis.queued ∧ Same l tr u.taskId ∨
      Spent (l :: tr) (.queueing u) u)
    (hj : ∀ j u, j ≠ i → (ds j).task = some u → Same l tr u.taskId)
    (hi : ∀ u, d.task = some u → Spent (l :: tr) d u) :
    Counted S (l :: tr) w' (Function.update ds i d) := by
  constructor
  · rw [show (fun j => ((Function.update ds i d) j).task.map Task.tag) =
      Function.update (fun j => (ds j).task.map Task.tag) i (d.task.map Task.tag) from
      Function.comp_update (fun d : Progress => d.task.map Task.tag) ds i d]
    exact hc
  · exact hs
  · exact hf
  · intro id hid
    obtain ⟨hid, h₁, h₂⟩ := hn id hid
    rw [h₁, h₂]
    exact h.unseen id hid
  · intro id u hu
    rcases hr id u hu with ⟨hu, h₁, _⟩ | hu
    · rw [h₁]
      exact h.stored id u hu
    · exact hu
  · intro u hu
    rcases hq u hu with ⟨hu, hs⟩ | hu
    · exact (h.queued u hu).same hs
    · exact hu
  · intro j u hu
    by_cases hji : j = i
    · rw [hji, Function.update_self] at hu ⊢
      exact hi u hu
    · rw [Function.update_of_ne hji] at hu ⊢
      exact (h.inHand j u hu).same (hj j u hji hu)

/-- Tasks in Redis stay as they are, and process `i` keeps its task or lets it go. -/
theorem aside (h : Counted S tr w ds) (ht : (ds i).task = some t) (hw : SameTasks w w')
    (hs : Stages w'.stage (Progress.hold ∘ Function.update ds i d))
    (hd : ∀ u, d.task = some u → u.tag = t.tag ∧ Spent (l :: tr) d u)
    (hne : ∀ id, id ≠ t.taskId → Same l tr id)
    (hle : tally streamStart t.taskId (l :: tr) ≤ t.retryCount + 1) :
    Counted S (l :: tr) w' (Function.update ds i d) := by
  obtain ⟨v, hv, hn⟩ := h.record ht
  apply h.step _ hs
  · rw [hw.stage, hw.tasks]
    exact h.fresh
  · intro id hid
    rw [hw.record] at hid
    refine ⟨hid, hne id ?_⟩
    rintro rfl
    rw [hv] at hid
    cases hid
  · intro id u hu
    rw [hw.record] at hu
    by_cases hid : id = t.taskId
    · right
      subst hid
      rw [hv] at hu
      cases hu
      rw [hn]
      exact ⟨h.bounded ht, hle⟩
    · exact .inl ⟨hu, hne id hid⟩
  · intro u hu
    rw [hw.queued] at hu
    exact .inl ⟨hu, hne _ (h.ne_queued ht hu)⟩
  · exact fun j u hj hu => hne _ (h.ne_inHand ht hj hu)
  · exact fun u hu => (hd u hu).2
  · have htags : w'.redis.tags = w.redis.tags := by
      funext id
      rw [Redis.tags, hw.record, Redis.tags]
    rw [htags, hw.queued]
    cases hdt : d.task with
    | none => exact h.custody.drop i
    | some u =>
      have hsame : (some u).map Task.tag = (ds i).task.map Task.tag := by
        rw [ht, Option.map_some, (hd u hdt).1, Option.map_some]
      rw [hsame, Function.update_eq_self (f := fun j => (ds j).task.map Task.tag)]
      exact h.custody

/-- Nothing happens that concerns tasks. -/
theorem pass (h : Counted S tr w ds) (hw : SameTasks w w') (hl : ∀ id, Same l tr id) :
    Counted S (l :: tr) w' ds := by
  constructor
  · have htags : w'.redis.tags = w.redis.tags := by
      funext id
      rw [Redis.tags, hw.record, Redis.tags]
    rw [htags, hw.queued]
    exact h.custody
  · rw [hw.stage]
    exact h.stages
  · rw [hw.stage, hw.tasks]
    exact h.fresh
  · intro id hid
    rw [hw.record] at hid
    rw [(hl id).1, (hl id).2]
    exact h.unseen id hid
  · intro id u hu
    rw [hw.record] at hu
    rw [(hl id).1]
    exact h.stored id u hu
  · intro u hu
    rw [hw.queued] at hu
    exact (h.queued u hu).same (hl _)
  · exact fun j u hu => (h.inHand j u hu).same (hl _)

/-- The task in hand is written. -/
theorem write (h : Counted S tr w ds) (ht : (ds i).task = some t) (hu : u.taskId = t.taskId)
    (hs : Stages w.stage (Progress.hold ∘ Function.update ds i d)) (hl : ∀ id, Same l tr id)
    (hmax : (u.retryCount : Int) ≤ S.settings.maxRetries)
    (hle : tally streamStart t.taskId tr ≤ u.retryCount + 1) (hd : ∀ v, d.task = some v → v = u)
    (hi : d.task = some u → Spent tr d u) :
    Counted S (l :: tr) (w.onRedis (·.set u.taskId (modelDumpJson u)))
      (Function.update ds i d) := by
  obtain ⟨v, hv, hn⟩ := h.record ht
  have hrec : (w.redis.set u.taskId (modelDumpJson u)).record =
      Function.update w.redis.record u.taskId (some u) := Redis.record_set_dump ..
  have hserving : w.stage = .serving := by
    refine h.fresh.resolve_right fun hf => ?_
    rw [Redis.record, hf] at hv
    cases hv
  apply h.step
  · rw [World.onRedis, Redis.tags_set_dump]
    apply h.custody.write (own ht) hu
    intro x hx
    obtain ⟨y, hy, rfl⟩ := Option.map_eq_some_iff.1 hx
    rw [hd y hy]
    exact ⟨rfl, trivial⟩
  · exact hs
  · exact .inl hserving
  · intro id hid
    rw [World.onRedis, hrec] at hid
    rcases update_eq_iff.1 hid with ⟨_, hn⟩ | ⟨_, hn⟩
    · exact absurd hn (Option.some_ne_none u)
    · exact ⟨hn, hl id⟩
  · intro id x hx
    rw [World.onRedis, hrec] at hx
    rcases update_eq_iff.1 hx with ⟨hid, he⟩ | ⟨_, hx⟩
    · obtain rfl := Option.some.inj he
      right
      rw [(hl _).1, hid, hu]
      exact ⟨hmax, hle⟩
    · exact .inl ⟨hx, hl id⟩
  · exact fun x hx => .inl ⟨hx, hl _⟩
  · exact fun j x _ _ => hl _
  · intro x hx
    obtain rfl := hd x hx
    exact (hi hx).same (hl _)

theorem tally_le (h : Counted S tr w ds) (ht : (ds i).task = some t) :
    tally streamStart t.taskId tr ≤ t.retryCount + 1 := by
  obtain ⟨v, hv, hn⟩ := h.record ht
  rw [← hn]
  exact (h.stored _ v hv).2

section
variable {sp : Kind → World Text Event → World Text Event → Prop}
  {ex : Kind → Except Exc Returned → World Text Event → World Text Event → Option Kind → Prop}

/-- A command that does not count, and that has nothing to do with tasks. -/
theorem keep {c : Cmd Text Event} {r : c.Answer} (h : Counted S tr w ds)
    (ha : (orchestrator Text S sp ex).Answer i c r w w' l) (hc : c.quiet = true)
    (ht : (ds i).task = some t) (hs : Stages w'.stage (Progress.hold ∘ Function.update ds i d))
    (hl : ∀ id, Same l tr id) (hd : Keeps (ds i) d t) :
    Counted S (l :: tr) w' (Function.update ds i d) := by
  apply h.aside ht (answer_sameTasks hc ha) hs _ fun id _ => hl id
  · rw [(hl _).1]
    exact h.tally_le ht
  · intro u hu
    obtain ⟨rfl, he, hk⟩ := hd u hu
    exact ⟨rfl, ((h.inHand i u ht).mono rfl he hk).same (hl _)⟩

/-- A command that writes the task in hand. -/
theorem put {r : Except Exc Unit} (h : Counted S tr w ds)
    (ha : (orchestrator Text S sp ex).Answer i (.set u.taskId (modelDumpJson u)) r w w' l)
    (ht : (ds i).task = some t) (hu : u.taskId = t.taskId)
    (hs : Stages w'.stage (Progress.hold ∘ Function.update ds i d))
    (hmax : (u.retryCount : Int) ≤ S.settings.maxRetries) (hn : t.retryCount ≤ u.retryCount)
    (hd : ∀ v, d.task = some v → v = u ∧ Spent tr d u)
    (he : ∀ e v, r = .error e → d.task = some v → u.retryCount = t.retryCount) :
    Counted S (l :: tr) w' (Function.update ds i d) := by
  have hl (id : String) : Same l tr id := by
    cases ha <;> exact same_of_none rfl rfl tr id
  have hle := h.tally_le ht
  rcases set_effect ha with rfl | ⟨⟨e, rfl⟩, hw⟩
  · exact h.write ht hu hs hl hmax (hle.trans (Nat.succ_le_succ hn)) (fun v hv => (hd v hv).1)
      fun hv => (hd u hv).2
  · apply h.aside ht hw.sameTasks hs _ fun id _ => hl id
    · rw [(hl _).1]
      exact hle
    · intro v hv
      obtain ⟨rfl, hsp⟩ := hd v hv
      exact ⟨Prod.ext hu (he e v rfl hv), hsp.same (hl _)⟩

end

/-- A command about the stream of the task in hand. -/
theorem stream (h : Counted S tr w ds) (ht : (ds i).task = some t)
    (hex : executing i tr = some t.taskId) (hw : SameTasks w w')
    (hs : Stages w'.stage (Progress.hold ∘ Function.update ds i d))
    (hc : ∀ j, streamStart l = some j ∨ retriableError l = some j → j = i)
    (hle : tally streamStart t.taskId (l :: tr) ≤ t.retryCount + 1) (hd : d.task = some t)
    (he : 1 ≤ d.extra)
    (hk : ∀ k, d.slipped = some k → tally retriableError t.taskId (l :: tr) = t.retryCount + k) :
    Counted S (l :: tr) w' (Function.update ds i d) := by
  apply h.aside ht hw hs _ _ hle
  · intro u hu
    obtain rfl := Option.some.inj (hu.symm.trans hd)
    exact ⟨rfl, hle.trans (Nat.add_le_add_left he _), hk⟩
  · exact fun id hid => ⟨tally_ne (fun j hj => hc j (.inl hj)) hex hid,
      tally_ne (fun j hj => hc j (.inr hj)) hex hid⟩

/-- The task in hand is put into the queue. -/
theorem push (h : Counted S tr w ds) (ht : ds i = .queueing t)
    (hs : Stages w.stage (Progress.hold ∘ Function.update ds i .idle)) (hl : ∀ id, Same l tr id) :
    Counted S (l :: tr) (w.onRedis (·.lpush (modelDumpJson t))) (Function.update ds i .idle) := by
  have ht' : (ds i).task = some t := by rw [ht]; rfl
  apply h.step
  · rw [World.onRedis, Redis.queued_lpush_dump]
    exact h.custody.push (own ht') trivial
  · exact hs
  · exact h.fresh
  · exact fun id hid => ⟨hid, hl id⟩
  · exact fun id u hu => .inl ⟨hu, hl id⟩
  · intro u hu
    rw [World.onRedis, Redis.queued_lpush_dump] at hu
    rcases List.mem_cons.1 hu with rfl | hu
    · have hspent := h.inHand i u ht'
      rw [ht] at hspent
      exact .inr (hspent.same (hl _))
    · exact .inl ⟨hu, hl _⟩
  · exact fun j u _ _ => hl _
  · exact fun _ hu => by cases hu

/-- A task is taken from the queue, or lost with the reply. -/
theorem pop {x : Text} (h : Counted S tr w ds)
    (hx : w.redis.queue.getLast? = some x)
    (hs : Stages w.stage (Progress.hold ∘ Function.update ds i d))
    (hd : ∀ u, d.task = some u → parse x = some u ∧ d = .taken u) (hl : ∀ id, Same l tr id) :
    Counted S (l :: tr) (w.onRedis fun q => { q with queue := q.queue.dropLast })
      (Function.update ds i d) := by
  have hq := Redis.queued_getLast hx
  have hsub (u : Task)
      (hu : u ∈ ({ w.redis with queue := w.redis.queue.dropLast } : Redis Text).queued) :
      u ∈ w.redis.queued := by
    rw [hq]
    exact List.mem_append_left _ hu
  apply h.step
  · have hc := h.custody
    rw [hq, List.map_append] at hc
    cases hp : parse x with
    | none =>
      rw [hp] at hc
      simp only [Option.toList, List.map_nil, List.append_nil] at hc
      cases hdt : d.task with
      | none => exact hc.drop i
      | some u => cases hp.symm.trans (hd u hdt).1
    | some t =>
      rw [hp] at hc
      have hpop := hc.pop (i := i)
      cases hdt : d.task with
      | none =>
        have hdrop := hpop.drop i
        rwa [Function.update_idem] at hdrop
      | some u =>
        cases hp.symm.trans (hd u hdt).1
        exact hpop
  · exact hs
  · exact h.fresh
  · exact fun id hid => ⟨hid, hl id⟩
  · exact fun id u hu => .inl ⟨hu, hl id⟩
  · exact fun u hu => .inl ⟨hsub u hu, hl _⟩
  · exact fun j u _ _ => hl _
  · intro u hu
    obtain ⟨hp, rfl⟩ := hd u hu
    have hm : u ∈ w.redis.queued := by
      rw [hq, hp]
      exact List.mem_append_right _ (List.mem_singleton_self u)
    have hspent := (h.queued u hm).same (hl u.taskId)
    exact ⟨hspent.started, hspent.slipped⟩

/-- A new task is stored, and is in hand unless the reply is lost. -/
theorem create (h : Counted S tr w ds) (hn : t.retryCount = 0) (hid : t.taskId ∉ w.redis.tasks)
    (hst : w.stage = .serving) (hs : Stages w.stage (Progress.hold ∘ Function.update ds i d))
    (hmax : 0 ≤ S.settings.maxRetries) (hd : ∀ u, d.task = some u → d = .stored t)
    (hl : ∀ id, Same l tr id) :
    Counted S (l :: tr) (w.onRedis (·.set t.taskId (modelDumpJson t)))
      (Function.update ds i d) := by
  have hrec : (w.redis.set t.taskId (modelDumpJson t)).record =
      Function.update w.redis.record t.taskId (some t) := Redis.record_set_dump ..
  have hnone : w.redis.record t.taskId = none := by
    rw [Redis.record, AList.lookup_eq_none.2 hid]
    rfl
  obtain ⟨h₁, h₂⟩ := h.unseen t.taskId hnone
  apply h.step
  · rw [World.onRedis, Redis.tags_set_dump]
    have hc : Custody Prod.fst (fun _ => True) (fun _ => True)
        (Function.update w.redis.tags t.tag.1 (some t.tag)) (w.redis.queued.map Task.tag)
        (Function.update (fun j => (ds j).task.map Task.tag) i (some t.tag)) := by
      apply h.custody.create _ trivial
      rw [Redis.tags, Task.tag, hnone]
      rfl
    cases hdt : d.task with
    | none =>
      have hdrop := hc.drop i
      rwa [Function.update_idem] at hdrop
    | some u =>
      rw [hd u hdt] at hdt
      obtain rfl := Option.some.inj hdt
      exact hc
  · exact hs
  · exact .inl hst
  · intro id hidn
    rw [World.onRedis, hrec] at hidn
    rcases update_eq_iff.1 hidn with ⟨_, hx⟩ | ⟨_, hx⟩
    · exact absurd hx (Option.some_ne_none t)
    · exact ⟨hx, hl id⟩
  · intro id x hx
    rw [World.onRedis, hrec] at hx
    rcases update_eq_iff.1 hx with ⟨he, hx⟩ | ⟨_, hx⟩
    · obtain rfl := Option.some.inj hx
      right
      rw [(hl _).1, he, h₁, hn]
      exact ⟨hmax, Nat.zero_le _⟩
    · exact .inl ⟨hx, hl id⟩
  · exact fun x hx => .inl ⟨hx, hl _⟩
  · exact fun j x _ _ => hl _
  · intro u hu
    have he := hd u hu
    rw [he] at hu
    obtain rfl := Option.some.inj hu
    rw [he]
    refine Spent.same ⟨?_, ?_⟩ (hl _)
    · rw [h₁]
      exact Nat.zero_le _
    · intro k hk
      obtain rfl := Option.some.inj hk
      rw [h₂, hn]

theorem move {c : Cmd Text Event} {r : c.Answer} (h : Counted S tr w ds) (hn : Annotated tr ds)
    (hmax : 0 ≤ S.settings.maxRetries)
    (ha : (orchestrator Text S sp ex).Answer i c r w w' l) (hm : Move S (ds i) c r d) :
    Counted S (l :: tr) w' (Function.update ds i d) := by
  have hs := h.stages.move ha hm
  have hset {t u : Task} {r : Except Exc Unit}
      (ha : (orchestrator Text S sp ex).Answer i (.set u.taskId (modelDumpJson u)) r w w' l)
      (ht : (ds i).task = some t) (hu : u.Alike t) (hd : Keeps (ds i) d u) :
      Counted S (l :: tr) w' (Function.update ds i d) := by
    have htag : u.tag = t.tag := Prod.ext hu.1.1 hu.2
    apply h.put ha ht hu.1.1 hs _ hu.2.ge _ fun _ _ _ _ => hu.2
    · rw [hu.2]
      exact h.bounded ht
    · intro v hv
      obtain ⟨hvu, he, hk⟩ := hd v hv
      exact ⟨hvu, (h.inHand i t ht).mono htag he hk⟩
  have hnew {t : Task} (hr : ∃ id, w.redis.record id = some t)
      (hd : (ds i).stage = some .recovering) : Counted S (l :: tr) w' (Function.update ds i d) := by
    obtain ⟨id, hr⟩ := hr
    exact absurd hd (h.not_recovering hr)
  generalize hdi : ds i = d₀ at hm
  have htask {t : Task} (ht : d₀.task = some t) : (ds i).task = some t := by rw [hdi, ht]
  cases hm with
  | background hb =>
    rw [← hdi, Function.update_eq_self]
    apply h.pass (answer_sameTasks (quiet_of_background hb) ha)
    cases ha with
    | abort _ => exact same_of_none rfl rfl tr
    | cmd _ =>
      apply same_of_none
      · cases c with
        | iterEvents _ _ _ => cases hb
        | _ => rfl
      · cases c with
        | iterEvents _ _ _ | awaitFuture _ _ => cases hb
        | log line =>
          cases line with
          | lockStolen _ _ => cases hb
          | lockBusy _ _ => rfl
        | _ => rfl
  | read hx ht =>
    rename_i x t id
    apply hnew (t := t) ⟨id, _⟩ (by rw [hdi]; rfl)
    rcases answer_effect ha with ⟨a, ⟨he, _⟩, hr⟩ | ⟨⟨e, he⟩, _⟩
    · cases he
      rw [Redis.record, ← hr _ rfl]
      exact hx
    · cases he
  | mark _ _ _ | requeue _ | requeueMarked =>
    obtain ⟨v, hv, _⟩ := h.record (htask rfl)
    exact hnew ⟨_, hv⟩ (by rw [hdi]; rfl)
  | store hst hn =>
    rename_i t r
    have hl (id : String) : Same l tr id := by
      cases ha <;> exact same_of_none rfl rfl tr id
    rcases setNx_effect ha with ⟨hid, rfl, _⟩ | ⟨hr, hw⟩
    · apply h.create hn hid _ hs hmax _ hl
      · exact h.stages.now i .serving (by rw [Function.comp_apply, stage_hold, hdi]; rfl)
      · rcases r with e | _ | _
        · exact fun _ hu => by cases hu
        · exact fun _ hu => by cases hu
        · exact fun _ _ => rfl
    · have hd : granted r (.stored t) .idle = .idle := by
        rcases r with e | _ | _
        · rfl
        · rfl
        · exact absurd rfl hr
      rw [hd, ← hdi, Function.update_eq_self]
      exact h.pass hw.sameTasks hl
  | index =>
    apply h.keep ha rfl (htask rfl) hs
    · intro id
      cases ha <;> exact same_of_none rfl rfl tr id
    · rw [hdi]
      refine .settle ?_ fun _ _ => .none rfl
      unfold entered
      split <;> exact .of rfl (Nat.le_refl _) fun _ hk => hk
  | register _ =>
    apply h.keep ha rfl (htask rfl) hs
    · intro id
      cases ha <;> exact same_of_none rfl rfl tr id
    · rw [hdi]
      exact .settle (.of rfl (Nat.le_refl _) fun _ hk => hk) fun _ _ => .none rfl
  | queue =>
    have hl (id : String) : Same l tr id := by
      cases ha <;> exact same_of_none rfl rfl tr id
    rcases lpush_effect ha with rfl | ⟨_, hw⟩
    · exact h.push hdi hs hl
    · exact h.aside (htask rfl) hw.sameTasks hs (fun _ hu => by cases hu) (fun id _ => hl id)
        ((hl _).1 ▸ h.tally_le (htask rfl))
  | pop hx =>
    rename_i x t
    have hl (id : String) : Same l tr id := by
      cases ha <;> exact same_of_none rfl rfl tr id
    rcases brpop_effect ha with ⟨y, hy, rfl, hr⟩ | ⟨hr, _⟩
    · cases hr _ rfl
      apply h.pop hy hs _ hl
      intro u hu
      obtain rfl := Option.some.inj hu
      exact ⟨hx, rfl⟩
    · exact absurd rfl (hr x)
  | popNothing _ =>
    have hl (id : String) : Same l tr id := by
      cases ha with
      | cmd _ => exact same_of_none rfl rfl tr id
      | abort _ => exact same_of_none rfl rfl tr id
    rcases brpop_effect ha with ⟨y, hy, rfl, _⟩ | ⟨_, hw⟩
    · exact h.pop hy hs (fun _ hu => by cases hu) hl
    · rw [← hdi, Function.update_eq_self]
      exact h.pass hw.sameTasks hl
  | acquire =>
    apply h.keep ha rfl (htask rfl) hs
    · intro id
      cases ha <;> exact same_of_none rfl rfl tr id
    · rw [hdi]
      rename_i r
      rcases r with e | _ | _
      · exact .none rfl
      · exact .of rfl (Nat.le_refl _) fun _ hk => hk
      · exact .of rfl (Nat.le_refl _) fun _ hk => hk
  | run hu _ =>
    apply hset ha (htask rfl) hu
    rw [hdi]
    exact .settle (.of rfl (Nat.le_refl _) fun _ hk => hk) fun _ _ => .none rfl
  | reject hu hst =>
    apply hset ha (htask rfl) hu
    rw [hdi]
    refine .settle (.finished (Nat.zero_le _) fun k hk => ?_) fun _ _ => .none rfl
    cases (if_neg (by rw [hst]; decide)).symm.trans hk
  | start =>
    rename_i t mode r
    have hw := answer_sameTasks rfl ha
    have hex := hn.executes i t (by rw [hdi]; rfl)
    have hsp := h.inHand i t (htask rfl)
    rw [hdi] at hsp
    cases ha with
    | abort hx => exact absurd hx (not_abort rfl rfl)
    | cmd hx =>
      apply h.stream (htask rfl) hex hw hs counts_cmd
      · rw [tally_self rfl hex]
        exact Nat.succ_le_succ hsp.started
      · rcases r with e | it <;> rfl
      · rcases r with e | it <;> exact Nat.le_refl _
      · intro k hk
        rcases r with e | it
        · rw [tally_if rfl hex, hsp.slipped 0 rfl, Option.some.inj hk, Nat.add_zero]
        · rw [tally_none rfl]
          exact hsp.slipped k hk
  | launch =>
    apply h.keep ha rfl (htask rfl) hs
    · intro id
      cases ha <;> exact same_of_none rfl rfl tr id
    · rw [hdi]
      exact .of rfl (Nat.le_refl _) fun _ hk => hk
  | wait =>
    rename_i t n timeout r
    have hw := answer_sameTasks rfl ha
    have hex := hn.executes i t (by rw [hdi]; rfl)
    have hsp := h.inHand i t (htask rfl)
    have hle := h.tally_le (htask (t := t) rfl)
    rw [hdi] at hsp
    cases ha with
    | abort hx =>
      apply h.keep (.abort hx) rfl (htask rfl) hs fun id => same_of_none rfl rfl tr id
      obtain ⟨e, rfl, ⟨_, he⟩ | ⟨hr, _⟩, _⟩ := hx
      · rw [hdi]
        have hextra : (cutShort t e).extra = 1 := cutShort_eq fun _ => rfl
        refine .of (cutShort_eq fun _ => rfl) hextra.ge fun k hk => ?_
        exact (congrArg some (if_neg (by rw [he]; decide))).symm.trans
          (slipped_cutShort.symm.trans hk)
      · cases hr
    | cmd hx =>
      apply h.stream (htask rfl) hex hw hs counts_cmd
      · rw [tally_none rfl]
        exact hle
      · exact settle_eq rfl fun _ => cutShort_eq fun _ => rfl
      · have hextra : (settle r (.streamed t) (cutShort t)).extra = 1 :=
          settle_eq rfl fun _ => cutShort_eq fun _ => rfl
        exact hextra.ge
      · intro k hk
        rcases r with e | _
        · rw [tally_if rfl hex, hsp.slipped 0 rfl, Nat.add_zero,
            Option.some.inj (slipped_cutShort.symm.trans hk)]
        · rw [tally_none rfl]
          exact hsp.slipped k hk
  | succeed hu hst =>
    rename_i t u r
    have hfinishing : Keeps (ds i) (finished u) u := by
      rw [hdi]
      exact .finished (Nat.le_refl _) fun k hk => (if_pos hst).symm.trans hk
    apply hset ha (htask rfl) hu
    refine .settle hfinishing fun e he => ?_
    subst he
    have hc := other_of_raises rfl (by exact not_false) (raises_of_answer ha)
    rw [hdi]
    refine .of rfl (Nat.le_refl _) fun k hk => ?_
    exact (congrArg some (if_neg (by rw [hc]; decide))).symm.trans hk
  | fail _ hu hst =>
    apply hset ha (htask rfl) hu
    rw [hdi]
    refine .settle (.finished (Nat.le_refl _) fun k hk => ?_) fun _ _ => .none rfl
    cases (if_neg (by rw [hst]; decide)).symm.trans hk
  | halt hu hst =>
    apply hset ha (htask rfl) hu
    rw [hdi]
    exact .settle (.of rfl (Nat.le_refl _) fun _ hk => by cases hk) fun _ _ => .none rfl
  | hangUp =>
    apply h.keep ha rfl (htask rfl) hs
    · intro id
      cases ha <;> exact same_of_none rfl rfl tr id
    · rw [hdi]
      exact .settle (.of rfl (Nat.le_refl _) fun _ hk => hk) fun _ _ => .none rfl
  | stolen =>
    rename_i t
    have hw := answer_sameTasks rfl ha
    have hex := hn.executes i t (by rw [hdi]; rfl)
    have hsp := h.inHand i t (htask rfl)
    have hle := h.tally_le (htask (t := t) rfl)
    rw [hdi] at hsp
    cases ha with
    | abort hx => exact absurd hx (not_abort rfl rfl)
    | cmd hx =>
      apply h.stream (htask rfl) hex hw hs counts_cmd
      · rw [tally_none rfl]
        exact hle
      · rfl
      · exact Nat.le_refl _
      · intro k hk
        rw [tally_self rfl hex, hsp.slipped 0 rfl, ← Option.some.inj hk]
  | retry ht hu hn hst =>
    rename_i t u r
    have hsp := h.inHand i t (htask rfl)
    rw [hdi] at hsp
    apply h.put ha (htask rfl) hu.1 hs
    · rw [hn]
      omega
    · exact hn.ge.trans' (Nat.le_succ _)
    · intro v hv
      rcases r with e | _
      · cases hv
      · obtain rfl := Option.some.inj hv
        refine ⟨rfl, ?_, fun k hk => ?_⟩
        · rw [hu.1, hn]
          exact hsp.started
        · rw [hu.1, hn, ← Option.some.inj hk]
          exact hsp.slipped 1 rfl
    · intro e v he hv
      rw [he] at hv
      cases hv
  | abandon _ hu hst =>
    apply hset ha (htask rfl) hu
    rw [hdi]
    refine .settle (.finished (Nat.le_refl _) fun k hk => ?_) fun _ _ => .none rfl
    cases (if_neg (by rw [hst]; decide)).symm.trans hk
  | clear =>
    rename_i t r
    have hex (id : String) : Same l tr id := by
      cases ha <;> exact same_of_none rfl rfl tr id
    apply h.keep ha rfl (htask rfl) hs hex
    refine .settle ?_ fun e he => ?_
    · rw [hdi]
      exact .of rfl (Nat.le_refl _) fun _ hk => by cases hk
    · subst he
      have hc := other_of_raises rfl (by exact not_false) (raises_of_answer ha)
      rw [hdi]
      unfold unclear
      split
      · rename_i hst
        refine .of rfl (Nat.le_refl _) fun k hk => (if_pos hst).trans ?_
        exact (congrArg some (if_neg (by rw [hc]; decide))).symm.trans hk
      · exact .none rfl
  | leave | close | closeHalted =>
    apply h.keep ha rfl (htask rfl) hs
    · intro id
      cases ha <;> exact same_of_none rfl rfl tr id
    · exact .none rfl

/-- A process without a task comes or goes. -/
theorem change (h : Counted S tr w ds) (hr : w'.redis = w.redis)
    (hf : w'.stage = .serving ∨ w.redis.tasks = ∅) (hd : d.task = none)
    (hs : Stages w'.stage (Progress.hold ∘ Function.update ds i d)) (hl : ∀ id, Same l tr id) :
    Counted S (l :: tr) w' (Function.update ds i d) := by
  apply h.step
  · rw [hr, hd]
    exact h.custody.drop i
  · exact hs
  · rwa [hr]
  · intro id hid
    rw [hr] at hid
    exact ⟨hid, hl id⟩
  · intro id u hu
    rw [hr] at hu
    exact .inl ⟨hu, hl id⟩
  · intro u hu
    rw [hr] at hu
    exact .inl ⟨hu, hl _⟩
  · exact fun j u _ _ => hl _
  · intro u hu
    cases hd.symm.trans hu

end Counted

/-- A task is given up on its last error. -/
def GaveUp (S : Setup Event) (tr : List (SysLabel Text Event)) : Prop :=
  ∀ l tr' i x t, l :: tr' <:+ tr → writes l = some (i, x) → parse x = some t →
    handling.read i tr' = true → t.status = .failed →
    (tally retriableError t.taskId tr' : Int) = S.settings.maxRetries + 1

theorem GaveUp.cons {S : Setup Event} {tr : List (SysLabel Text Event)}
    {l : SysLabel Text Event} (h : GaveUp S tr)
    (hl : ∀ i x t, writes l = some (i, x) → parse x = some t → handling.read i tr = true →
      t.status = .failed → (tally retriableError t.taskId tr : Int) = S.settings.maxRetries + 1) :
    GaveUp S (l :: tr) := by
  intro l' tr' i x t hs hw
  rcases List.suffix_cons_iff.1 hs with he | hs
  · obtain ⟨rfl, rfl⟩ := List.cons.inj he
    exact hl i x t hw
  · exact h l' tr' i x t hs hw

/-- What is written by a process: the task in hand, with at least as many retries. A process that
is in `_handle_retriable` gives up when there are no more. -/
theorem Move.writes {S : Setup Event} {c : Cmd Text Event} {r : c.Answer} {x : Text} {id : String}
    (hm : Move S d c r d') (hc : c = .set id x) :
    ∃ t u, d.task = some t ∧ parse x = some u ∧ id = t.taskId ∧ u.taskId = t.taskId ∧
      t.retryCount ≤ u.retryCount ∧ (d.handles = true → u.status = .failed →
        d = .retrying t ∧ ¬(t.retryCount : Int) < S.settings.maxRetries) := by
  have halike {t u : Task} (ht : d.task = some t)
      (he : (.set u.taskId (modelDumpJson u) : Cmd Text Event) = .set id x) (hu : u.Alike t)
      (hs : d.handles = true → u.status = .failed →
        d = .retrying t ∧ ¬(t.retryCount : Int) < S.settings.maxRetries) :
      ∃ t u, d.task = some t ∧ parse x = some u ∧ id = t.taskId ∧ u.taskId = t.taskId ∧
        t.retryCount ≤ u.retryCount ∧ (d.handles = true → u.status = .failed →
          d = .retrying t ∧ ¬(t.retryCount : Int) < S.settings.maxRetries) := by
    cases he
    exact ⟨t, u, ht, parse_dump u, hu.1.1, hu.1.1, hu.2.ge, hs⟩
  cases hm with
  | background hb =>
    rw [hc] at hb
    cases hb
  | mark _ hu _ | run hu _ | reject hu _ | succeed hu _ => exact halike rfl hc hu nofun
  | halt hu _ => exact halike rfl hc hu nofun
  | fail hv hu _ =>
    exact halike rfl hc hu fun h => absurd (of_decide_eq_true h) hv.1
  | retry _ hu hn hs =>
    rename_i t u r _
    cases hc
    refine ⟨t, u, rfl, parse_dump u, hu.1, hu.1, hn.ge.trans' (Nat.le_succ _), fun _ hf => ?_⟩
    cases hs.symm.trans hf
  | abandon ht hu _ => exact halike rfl hc hu fun _ _ => ⟨rfl, ht⟩
  | _ => cases hc

def retries (Text : Type) [TaskJson Text] (S : Setup Event) :
    Assertion (orchestrator Text S spawn exit) Progress where
  ok := crashFree
  inv tr w ds := Annotated tr ds ∧ Counted S tr w ds ∧ GaveUp S tr
  guar w _ w' := ∀ id t t', w.redis.record id = some t → w'.redis.record id = some t' →
    t.retryCount ≤ t'.retryCount

section
variable {S : Setup Event} {tr : List (SysLabel Text Event)} {w w' : World Text Event}
  {ds : Nat → Progress} {l : SysLabel Text Event} {i : Nat} {d : Progress}
  {sp : Kind → World Text Event → World Text Event → Prop}
  {ex : Kind → Except Exc Returned → World Text Event → World Text Event → Option Kind → Prop}

theorem Counted.grows {c : Cmd Text Event} {r : c.Answer} (h : Counted S tr w ds)
    (ha : (orchestrator Text S sp ex).Answer i c r w w' l) (hm : Move S (ds i) c r d) {id : String}
    {t t' : Task} (ht : w.redis.record id = some t) (ht' : w'.redis.record id = some t') :
    t.retryCount ≤ t'.retryCount := by
  have hsame (hr : w'.redis.record = w.redis.record) : t.retryCount ≤ t'.retryCount := by
    rw [hr, ht] at ht'
    cases ht'
    exact Nat.le_refl _
  have hset {u : Task} (hw : w' = w.onRedis (·.set u.taskId (modelDumpJson u)))
      (hu : u.taskId = id → t.retryCount ≤ u.retryCount) : t.retryCount ≤ t'.retryCount := by
    rw [hw, World.onRedis, Redis.record_set_dump] at ht'
    rcases update_eq_iff.1 ht' with ⟨rfl, he⟩ | ⟨_, he⟩
    · obtain rfl := Option.some.inj he
      exact hu rfl
    · rw [ht] at he
      cases he
      exact Nat.le_refl _
  rcases hm.carries with hc | hc
  · cases hc with
    | aside hq _ => exact hsame (answer_sameTasks hq ha).record
    | write _ _ _ =>
      rename_i v u _ _ _
      obtain ⟨v, u', hv, hp, hid, hu, hn, _⟩ := hm.writes rfl
      cases (parse_dump u).symm.trans hp
      rcases set_effect ha with hw | ⟨_, hw⟩
      · refine hset hw ?_
        rintro rfl
        obtain ⟨y, hy, he⟩ := h.record hv
        rw [← hid, ht] at hy
        cases hy
        rwa [he]
      · exact hsame (by rw [hw.redis])
    | push _ _ =>
      rcases lpush_effect ha with rfl | ⟨_, hw⟩
      · exact hsame rfl
      · exact hsame (by rw [hw.redis])
  · generalize ds i = d₀ at hc
    cases hc with
    | read _ _ => exact hsame (answer_sameTasks rfl ha).record
    | store _ _ =>
      rename_i u r _ _
      rcases setNx_effect ha with ⟨hid, hw, _⟩ | ⟨_, hw⟩
      · refine hset hw ?_
        rintro rfl
        rw [Redis.record, AList.lookup_eq_none.2 hid] at ht
        cases ht
      · exact hsame (by rw [hw.redis])
    | pop _ | popNothing _ =>
      rcases brpop_effect ha with ⟨y, hy, rfl, _⟩ | ⟨_, hw⟩
      · exact hsame rfl
      · exact hsame (by rw [hw.redis])

theorem GaveUp.move {c : Cmd Text Event} {r : c.Answer} (h : GaveUp S tr) (hn : Annotated tr ds)
    (hc : Counted S tr w ds) (ha : (orchestrator Text S sp ex).Answer i c r w w' l)
    (hm : Move S (ds i) c r d) : GaveUp S (l :: tr) := by
  apply h.cons
  intro j x u hw hx hh hu
  obtain ⟨rfl, id, rfl⟩ := writes_answer ha hw
  obtain ⟨t, u', ht, hp, _, hid, _, hg⟩ := hm.writes rfl
  cases hx.symm.trans hp
  rw [hn.follows j] at hh
  obtain ⟨hd, hmax⟩ := hg hh hu
  have hsp := hc.inHand j t ht
  rw [hd] at hsp
  have hle := hc.bounded ht
  rw [hid, hsp.slipped 1 rfl]
  omega

end

theorem work_entry (q : Kind) : q.entry.work = none := by cases q <;> rfl

theorem handles_entry (q : Kind) : q.entry.handles = false := by cases q <;> rfl

theorem retries_tracked {S : Setup Event} (hmax : 0 ≤ S.settings.maxRetries) :
    Tracked (retries Text S) World.init where
  start := by
    refine ⟨⟨fun _ _ h => (nomatch h), fun _ => rfl⟩, ?_, fun l tr' i x t hs => ?_⟩
    · exact ⟨.empty, .idle _, .inr rfl, fun _ _ => ⟨rfl, rfl⟩, fun _ _ h => (nomatch h),
        fun _ h => (nomatch h), fun _ _ h => (nomatch h)⟩
    · exact absurd (List.eq_nil_of_suffix_nil hs) (List.cons_ne_nil l tr')
  move tr w ds i c r w' l d hi ha hok hm := by
    obtain ⟨hn, hc, hg⟩ := hi
    exact ⟨fun id t t' => hc.grows ha hm, hn.move ha hm, hc.move hn hmax ha hm, hg.move hn hc ha hm⟩
  spawn tr w ds i q w' hi hd hs _ := by
    obtain ⟨hn, hc, hg⟩ := hi
    have hr := redis_spawn hs
    refine ⟨fun id t t' ht ht' => ?_, hn.change (fun _ _ => rfl) (work_entry q)
      (hn.follows.spawn i q (handles_entry q)), hc.change hr ?_ (task_entry q)
      (hc.stages.spawn hs) (same_of_none rfl rfl tr), hg.cons nofun⟩
    · rw [hr, ht] at ht'
      cases ht'
      exact Nat.le_refl _
    · cases q with
      | recover =>
        refine .inr (hc.fresh.resolve_left fun hst => ?_)
        cases hst.symm.trans hs.1
      | worker | request _ => exact hs.2 ▸ hc.fresh
  exit tr w ds i q b w' o hi hd he _ := by
    obtain ⟨hn, hc, hg⟩ := hi
    have hr := redis_exit he
    have hq : (o.elim Progress.gone Kind.entry).task = none ∧
        (o.elim Progress.gone Kind.entry).work = none ∧
        (o.elim Progress.gone Kind.entry).handles = false := by
      cases o with
      | none => exact ⟨rfl, rfl, rfl⟩
      | some q' => exact ⟨task_entry q', work_entry q', handles_entry q'⟩
    obtain ⟨ht, hw, hh⟩ := hq
    refine ⟨fun id t t' ht ht' => ?_, hn.change (fun j hj => (local_exit i q b j hj).1) hw
      (hn.follows.exit i q b hh), hc.change hr ?_ ht (hc.stages.exit hd he)
      (same_of_none rfl rfl tr), hg.cons nofun⟩
    · rw [hr, ht] at ht'
      cases ht'
      exact Nat.le_refl _
    · cases q with
      | recover =>
        refine .inr (hc.fresh.resolve_left fun hst => ?_)
        have hrec := hc.stages.now i .recovering (by rw [Function.comp_apply, stage_hold, hd]; rfl)
        cases hst.symm.trans hrec
      | worker =>
        cases b with
        | ok _ => exact he.2 ▸ hc.fresh
        | error _ => exact he.2 ▸ hc.fresh
      | request _ => exact he.2 ▸ hc.fresh
  env tr w ds e w' hi ht _ := by
    obtain ⟨hn, hc, hg⟩ := hi
    have hw := tick_quiet ht
    refine ⟨fun id t t' ht ht' => ?_, ⟨fun i t ht => ?_, fun i => hn.follows i⟩,
      hc.pass hw (same_of_none rfl rfl tr), hg.cons nofun⟩
    · rw [hw.record, ht] at ht'
      cases ht'
      exact Nat.le_refl _
    · rw [executing_cons rfl]
      exact hn.executes i t ht
  halt tr w ds w' hi hh hok := absurd hok not_false

theorem retry_law {S : Setup Event} {tr : List (SysLabel Text Event)} {s : SysConfig Text Event}
    (hmax : 0 ≤ S.settings.maxRetries) (hr : Run (system Text S) crashFree (.idle .init) tr s) :
    RetryLaw S tr s := by
  have hA : Tracked (retries Text S) World.init := retries_tracked hmax
  obtain ⟨ds, hn, hc, hg⟩ := hA.sound.inv hr
  refine ⟨fun id => ?_, hc.stored, fun l s' id t t' hs hok => hA.sound.guar hr hs hok id t t', hg⟩
  cases ht : s.world.redis.record id with
  | none =>
    rw [(hc.unseen id ht).1]
    omega
  | some t =>
    obtain ⟨h₁, h₂⟩ := hc.stored id t ht
    omega

end

/-- Two streams that fail, which is one more than the retries of the small deployment. -/
def exhausted : Schedule :=
  start ++ create 1 ++ [.spawn 2 .worker] ++ turnToError 2 0 ++ turnFromStream 2 ++
    turnToError 2 1 ++ go 2 9

theorem retry_law_exhausted : ∃ tr s, DemoRun crashFree tr s ∧
    ((s.world.redis.record "u").map fun t => (t.status, t.retryCount)) = some (.failed, 1) ∧
    tally streamStart "u" tr = 2 ∧ tally retriableError "u" tr = 2 ∧ RetryLaw demo tr s := by
  obtain ⟨tr, s, hr, hs⟩ := demoDriver.drive_observe crashFree (.idle .init) exhausted
    (fun o => some ((o.2.world.redis.record "u").map fun t => (t.status, t.retryCount),
      tally streamStart "u" o.1, tally retriableError "u" o.1))
    (show _ = some (some (TaskStatus.failed, 1), 2, 2) by decide)
  obtain ⟨h₁, h⟩ := Prod.mk.inj (Option.some.inj hs)
  obtain ⟨h₂, h₃⟩ := Prod.mk.inj h
  exact ⟨tr, s, hr, h₁, h₂, h₃, retry_law (by decide) hr⟩

end Orchestrator
