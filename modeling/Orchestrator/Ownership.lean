import Orchestrator.Ledger

namespace Orchestrator
open Concurrency Async
set_option autoImplicit true

/-- What a process has: nothing yet or any more, no task, a task, or, for the recovery, the
record it read last. -/
inductive Hold where
  | gone
  | free
  | owns (t : Task)
  | scans (o : Option Task)

def Hold.owned : Hold → Option Task
  | .owns t => some t
  | _ => none

def Hold.stage : Hold → Option Stage
  | .gone => none
  | .free | .owns _ => some .serving
  | .scans _ => some .recovering

/-- The recovery runs alone, and before everything else. -/
structure Stages (st : Stage) (ds : Nat → Hold) : Prop where
  now : ∀ i st', (ds i).stage = some st' → st = st'
  alone : ∀ i j, (ds i).stage = some .recovering → j ≠ i → ds j = .gone

theorem Stages.update {st : Stage} {ds : Nat → Hold} (h : Stages st ds)
    (hd : d.stage = (ds i).stage) : Stages st (Function.update ds i d) := by
  have hst : ∀ j, (Function.update ds i d j).stage = (ds j).stage := by
    intro j
    by_cases hj : j = i
    · subst hj
      rw [Function.update_self, hd]
    · rw [Function.update_of_ne hj]
  constructor
  · intro j st' hj
    exact h.now j st' (hst j ▸ hj)
  · intro j k hj hk
    have hg := h.alone j k (hst j ▸ hj) hk
    by_cases hki : k = i
    · subst hki
      rw [hg] at hd
      rw [Function.update_self]
      cases d with
      | gone => rfl
      | _ => cases hd
    · rw [Function.update_of_ne hki, hg]

theorem Stages.leave {st : Stage} {ds : Nat → Hold} (h : Stages st ds) (i : Nat) :
    Stages st (Function.update ds i .gone) := by
  constructor
  · intro j st' hj
    rcases update_eq_iff.1 (rfl : Function.update ds i .gone j = _) with ⟨_, he⟩ | ⟨_, he⟩
    · rw [← he] at hj
      cases hj
    · rw [← he] at hj
      exact h.now j st' hj
  · intro j k hj hk
    by_cases hji : j = i
    · subst hji
      rw [Function.update_self] at hj
      cases hj
    · rw [Function.update_of_ne hji] at hj
      by_cases hki : k = i
      · subst hki
        rw [Function.update_self]
      · rw [Function.update_of_ne hki, h.alone j k hj hk]

theorem Stages.idle (st : Stage) : Stages st fun _ => .gone :=
  ⟨fun _ _ h => (nomatch h), fun _ _ h => (nomatch h)⟩

theorem Stages.scan (i : Nat) (o : Option Task) :
    Stages .recovering (Function.update (fun _ => .gone) i (.scans o)) := by
  constructor
  · intro j st' hj
    by_cases hji : j = i
    · rw [hji, Function.update_self] at hj
      cases hj
      rfl
    · rw [Function.update_of_ne hji] at hj
      cases hj
  · intro j k hj hk
    by_cases hji : j = i
    · rw [Function.update_of_ne (hji ▸ hk)]
    · rw [Function.update_of_ne hji] at hj
      cases hj

theorem Stages.serve {st : Stage} {ds : Nat → Hold} (h : Stages st ds) (hst : st = .serving)
    (i : Nat) (hd : d.stage = some .serving) : Stages st (Function.update ds i d) := by
  have hne (j : Nat) : (Function.update ds i d j).stage ≠ some .recovering := by
    intro hj
    by_cases hji : j = i
    · rw [hji, Function.update_self, hd] at hj
      cases hj
    · rw [Function.update_of_ne hji] at hj
      have := h.now j _ hj
      rw [hst] at this
      cases this
  refine ⟨fun j st' hj => ?_, fun j _ hj => absurd hj (hne j)⟩
  by_cases hji : j = i
  · rw [hji, Function.update_self, hd] at hj
    cases hj
    exact hst
  · rw [Function.update_of_ne hji] at hj
    exact h.now j _ hj

section
variable [TaskJson Text]

/-- No entry of the task is in the queue when the recovery adds this one. -/
def Unqueued (w : World Text Event) (x : Text) : Prop :=
  w.stage = .recovering → ∀ t, parse x = some t → t.taskId ∉ w.redis.queued.map Task.taskId

/-- With `F`, cancellations and streams that end in a timeout or in no `Exception` may occur, and
with `B` crashes. Redis carries out every command. -/
def allowed (F B : Prop) : Filter Text Event := fun _ w l _ =>
  match l with
  | .cmd _ (.lpush x) _ => B → Unqueued w x
  | .cmd _ (.iterEvents ..) r => F ∨ ∀ e, r = .error e → e.isException = true
  | .cmd _ (.awaitFuture ..) r =>
    F ∨ ∀ e, r = .error e → e.cls ≠ .timeout ∧ e.isException = true
  | .abort _ c r => F ∧ (∀ e, r = .error e → e.cls = .cancelled) ∧ ∀ x, c = .lpush x → Unqueued w x
  | .halt => B
  | _ => True

structure Owned (F B : Prop) (tr : List (SysLabel Text Event)) (w : World Text Event)
    (ds : Nat → Hold) : Prop where
  ledger : Ledger F B tr w (Hold.owned ∘ ds)
  stages : Stages w.stage ds
  scanned : ∀ i t, ds i = .scans (some t) → w.redis.record t.taskId = some t ∧ Live t

/-- The record that a step may have created. -/
def created : SysLabel Text Event → Option String
  | .cmd _ (.setNx id _) _ | .abort _ (.setNx id _) _ => some id
  | _ => none

/-- A stored task stays, and its status only changes the legal way. -/
structure Kept (w : World Text Event) (l : SysLabel Text Event) (w' : World Text Event) :
    Prop where
  kept : ∀ id t, w.redis.record id = some t → ∃ t', w'.redis.record id = some t' ∧
    t.SameTask t' ∧ TaskStatus.Legal t.status t'.status
  fresh : ∀ id t, w'.redis.record id = some t → w.redis.record id = none → created l = some id

def ownership (Text : Type) [TaskJson Text] (S : Setup Event) (F B : Prop) :
    Assertion (system Text S) Hold where
  ok := allowed F B
  inv := Owned F B
  guar := Kept

theorem Kept.of_record {w w' : World Text Event} {l : SysLabel Text Event}
    (h : w'.redis.record = w.redis.record) : Kept w l w' := by
  constructor
  · intro id t ht
    rw [h]
    exact ⟨t, ht, .refl t, .same _⟩
  · intro id t ht hn
    rw [h, hn] at ht
    cases ht

theorem Kept.of_same {w w' : World Text Event} {l : SysLabel Text Event} (h : SameTasks w w') :
    Kept w l w' := .of_record h.record

theorem Kept.set {w : World Text Event} {l : SysLabel Text Event} {t u : Task}
    (hu : w.redis.record t.taskId = some u) (hs : u.SameTask t)
    (hl : TaskStatus.Legal u.status t.status) :
    Kept w l (w.onRedis (·.set t.taskId (modelDumpJson t))) := by
  constructor <;> intro id v hv <;> by_cases hid : id = t.taskId <;>
    simp only [World.onRedis, Redis.record_set_dump] at *
  · subst hid
    rw [hu] at hv
    cases hv
    exact ⟨t, Function.update_self .., hs, hl⟩
  · exact ⟨v, by rw [Function.update_of_ne hid, hv], .refl v, .same _⟩
  · subst hid
    rw [hu]
    exact fun hn => absurd hn (Option.some_ne_none u)
  · rw [Function.update_of_ne hid] at hv
    rw [hv]
    exact fun hn => absurd hn (Option.some_ne_none v)

theorem Kept.create {w : World Text Event} {l : SysLabel Text Event} {t : Task}
    (hr : w.redis.record t.taskId = none) (hl : created l = some t.taskId) :
    Kept w l (w.onRedis (·.set t.taskId (modelDumpJson t))) := by
  constructor <;> intro id v hv <;> by_cases hid : id = t.taskId <;>
    simp only [World.onRedis, Redis.record_set_dump] at *
  · subst hid
    rw [hr] at hv
    cases hv
  · exact ⟨v, by rw [Function.update_of_ne hid, hv], .refl v, .same _⟩
  · exact fun _ => hid ▸ hl
  · rw [Function.update_of_ne hid] at hv
    rw [hv]
    exact fun hn => absurd hn (Option.some_ne_none v)

namespace Owned
variable {F B : Prop} {tr : List (SysLabel Text Event)} {w w' : World Text Event}
  {ds : Nat → Hold} {l : SysLabel Text Event} {i : Nat}

theorem same (h : Owned F B tr w ds) (hs : SameTasks w w') (hl : F ∨ Silent l) :
    Owned F B (l :: tr) w' ds := by
  refine ⟨h.ledger.same hs hl, ?_, fun j t hj => ?_⟩
  · rw [hs.stage]
    exact h.stages
  · rw [hs.record]
    exact h.scanned j t hj

/-- A worker or a request passes to another hold. -/
theorem move (h : Owned F B tr w ds) (hd : (ds i).stage = some .serving)
    (hd' : d.stage = some .serving) (hst : w'.stage = w.stage)
    (hl : Ledger F B (l :: tr) w' (Function.update (Hold.owned ∘ ds) i d.owned)) :
    Owned F B (l :: tr) w' (Function.update ds i d) := by
  refine ⟨?_, ?_, fun j t hj => ?_⟩
  · rw [Function.comp_update]
    exact hl
  · rw [hst]
    exact h.stages.update (hd'.trans hd.symm)
  · exfalso
    rcases update_eq_iff.1 hj with ⟨_, rfl⟩ | ⟨_, hj⟩
    · cases hd'
    · have h₁ := h.stages.now i _ hd
      have h₂ := h.stages.now j .recovering (by rw [hj]; rfl)
      rw [h₁] at h₂
      cases h₂

theorem alone (h : Owned F B tr w ds) (hd : (ds i).stage = some .recovering) :
    Hold.owned ∘ ds = fun _ => none := by
  funext j
  by_cases hj : j = i
  · subst hj
    cases hj : ds j with
    | scans o => simp only [Function.comp_apply, hj, Hold.owned]
    | _ => rw [hj] at hd; cases hd
  · simp only [Function.comp_apply, h.stages.alone i j hd hj, Hold.owned]

/-- The recovery passes to another record. -/
theorem rescan (h : Owned F B tr w ds) (hd : (ds i).stage = some .recovering)
    (hst : w'.stage = w.stage) (hl : Ledger F B (l :: tr) w' fun _ => none)
    (ho : ∀ t, o = some t → w'.redis.record t.taskId = some t ∧ Live t) :
    Owned F B (l :: tr) w' (Function.update ds i (.scans o)) := by
  refine ⟨?_, ?_, fun j t hj => ?_⟩
  · rw [Function.comp_update, h.alone hd]
    simp only [Hold.owned]
    rwa [Function.update_eq_self (f := fun _ => none)]
  · rw [hst]
    exact h.stages.update hd.symm
  · rcases update_eq_iff.1 hj with ⟨_, he⟩ | ⟨hji, hj⟩
    · cases he
      exact ho t rfl
    · rw [h.stages.alone i j hd hji] at hj
      cases hj

end Owned

section
variable {S : Setup Event} {F B : Prop} {tr : List (SysLabel Text Event)}
  {w w' : World Text Event} {ds : Nat → Hold} {l : SysLabel Text Event} {i : Nat}

theorem answer_cases (tr : List (SysLabel Text Event)) {c : Cmd Text Event} {r : c.Answer}
    (ha : (system Text S).Answer i c r w w' l) (hok : allowed F B tr w l w') :
    (l = .cmd i c r ∧ exec c r w w') ∨
      (l = .abort i c r ∧ F ∧ c.awaited = true ∧ ∃ e, r = .error e ∧ e.cls = .cancelled ∧
        (w' = c.giveUp w ∨ ∃ a, exec c (.ok a) w w')) := by
  cases ha with
  | cmd h => exact .inl ⟨rfl, h⟩
  | abort h =>
    obtain ⟨e, rfl, hc, hw⟩ := h
    obtain ⟨hF, he, _⟩ := hok
    have he := he e rfl
    rcases hc with ⟨hc, _⟩ | ⟨_, hc⟩
    · exact .inr ⟨rfl, hF, hc, e, rfl, he, hw⟩
    · rw [he] at hc
      cases hc

theorem exec_fails (tr : List (SysLabel Text Event)) {c : Cmd Text Event} {e : Exc}
    (h : exec c (.error e) w w') (hok : allowed F B tr w (.cmd i c (.error e)) w') :
    c.fails F e := by
  have he := exec_error h
  cases c with
  | iterEvents _ _ _ | awaitFuture _ _ => exact hok.imp_right fun he => he e rfl
  | _ => exact he

theorem quiet_answer {c : Cmd Text Event} {r : c.Answer} (hc : c.quiet = true)
    (hi : Owned F B tr w ds) (ha : (system Text S).Answer i c r w w' l)
    (hok : allowed F B tr w l w') :
    Kept w l w' ∧ Owned F B (l :: tr) w' ds := by
  rcases answer_cases tr ha hok with ⟨rfl, hx⟩ | ⟨rfl, hF, _, e, rfl, _, hw⟩
  · have hs := exec_quiet hc hx
    exact ⟨.of_same hs, hi.same hs (.inr (silent_cmd hc i r))⟩
  · have hs : SameTasks w w' := by
      rcases hw with rfl | ⟨a, hx⟩
      · exact giveUp_quiet c w
      · exact exec_quiet hc hx
    exact ⟨.of_same hs, hi.same hs (.inl hF)⟩

theorem answer_raises (tr : List (SysLabel Text Event)) {c : Cmd Text Event} {e : Exc}
    (ha : (system Text S).Answer i c (.error e) w w' l) (hok : allowed F B tr w l w') :
    Raises F c e := by
  rcases answer_cases tr ha hok with ⟨rfl, hx⟩ | ⟨_, hF, hw, e', he, he', _⟩
  · exact .inr (exec_fails tr hx hok)
  · cases he
    exact .inl ⟨hF, hw, he'⟩

theorem wp_quiet {c : Cmd Text Event} (hc : c.quiet = true) {Q : c.Reply → σ → Hold → Prop}
    {X : Exc → σ → Hold → Prop} (hQ : ∀ a, Q a s d) (hX : ∀ e, Raises F c e → X e s d) :
    Wp (ownership Text S F B) i (ask c) Q X s d := by
  apply Wp.call
  intro tr w ds l r w' hi hd ha hok
  obtain ⟨hk, hi'⟩ := quiet_answer hc hi ha hok
  refine ⟨hk, d, ?_, ?_⟩
  · rwa [← hd, Function.update_eq_self]
  · cases r with
    | ok a => exact hQ a
    | error e => exact hX e (answer_raises tr ha hok)

theorem wp_plain {c : Cmd Text Event} (hc : c.plain = true) {Q : c.Reply → σ → Hold → Prop}
    {X : Exc → σ → Hold → Prop} (hQ : ∀ a, Q a s d)
    (hX : ∀ e, F → e.cls = .cancelled → X e s d) :
    Wp (ownership Text S F B) i (ask c) Q X s d := by
  apply wp_quiet (quiet_of_plain hc) hQ
  rintro e (⟨hF, _, he⟩ | hf)
  · exact hX e hF he
  · exact absurd hf (not_fails_of_plain hc F e)

theorem wp_sure {c : Cmd Text Event} (hc : c.sure = true) {Q : c.Reply → σ → Hold → Prop}
    {X : Exc → σ → Hold → Prop} (hQ : ∀ a, Q a s d) :
    Wp (ownership Text S F B) i (ask c) Q X s d := by
  have hp := plain_of_sure hc
  apply wp_quiet (quiet_of_plain hp) hQ
  rintro e (⟨_, hw, _⟩ | hf)
  · rw [not_awaited_of_sure hc] at hw
    cases hw
  · exact absurd hf (not_fails_of_plain hp F e)

/-- What a holder has after it has written its task. -/
def holdOf (t : Task) : Hold := if t.isTerminal then .free else .owns t

theorem holdOf_stage (t : Task) : (holdOf t).stage = some .serving := by
  unfold holdOf
  split <;> rfl

theorem holdOf_terminal {t : Task} (h : t.status.isTerminal = true) : holdOf t = .free := by
  unfold holdOf Task.isTerminal
  rw [h]
  rfl

theorem wp_set {t u : Task} {Q : Unit → σ → Hold → Prop} {X : Exc → σ → Hold → Prop}
    (hs : u.SameTask t) (hl : TaskStatus.Legal u.status t.status) (hQ : Q () s (holdOf t)) :
    Wp (ownership Text S F B) i (ask (.set t.taskId (modelDumpJson t))) Q X s
      (.owns u) := by
  apply Wp.call
  intro tr w ds l r w' hi hd ha hok
  have hst : (ds i).stage = some .serving := by rw [hd]; rfl
  have hu : (Hold.owned ∘ ds) i = some u := by rw [Function.comp_apply, hd]; rfl
  rcases answer_cases tr ha hok with ⟨rfl, rfl, rfl⟩ | ⟨_, _, hw, _⟩
  · have hr := (hi.ledger.custody.owner i u hu).1
    refine ⟨.set (hs.1 ▸ hr) hs hl, holdOf t, ?_, hQ⟩
    refine hi.move hst (holdOf_stage t) rfl (hi.ledger.write hu hs.1.symm (.inr ?_) ?_ ?_)
    · exact fun j => ⟨rfl, rfl⟩
    · intro v hv
      unfold holdOf at hv
      split at hv
      · cases hv
      · rename_i ht
        cases hv
        exact ⟨rfl, Bool.eq_false_iff.2 ht⟩
    · intro ht
      unfold holdOf
      rw [ht]
      rfl
  · cases hw

theorem wp_update {t : Task} {Q : Unit → Task → Hold → Prop} {X : Exc → Task → Hold → Prop}
    (hs : t.SameTask s) (hl : TaskStatus.Legal t.status s.status) (hQ : Q () s (holdOf s)) :
    Wp (ownership Text S F B) i (Worker.update S) Q X s (.owns t) := by
  apply Wp.bind
  apply Wp.object
  apply Wp.bind
  apply wp_set hs hl
  split
  · exact wp_sure rfl fun _ => hQ
  · exact Wp.pure _ hQ

theorem wp_enqueue {t : Task} {Q : Unit → σ → Hold → Prop} {X : Exc → σ → Hold → Prop}
    (ht : Ready t) (hQ : Q () s .free)
    (hX : ∀ e d, F → e.cls = .cancelled → d.stage = some .serving → X e s d) :
    Wp (ownership Text S F B) i (TaskQueue.enqueue t) Q X s (.owns t) := by
  apply Wp.call
  intro tr w ds l r w' hi hd ha hok
  have hst : (ds i).stage = some .serving := by rw [hd]; rfl
  have ho : (Hold.owned ∘ ds) i = some t := by rw [Function.comp_apply, hd]; rfl
  have hpush (l' : SysLabel Text Event) (hl' : F ∨ ∃ x r, l' = .cmd i (.lpush x) r) :
      Owned F B (l' :: tr) (w.onRedis (·.lpush (modelDumpJson t)))
        (Function.update ds i .free) :=
    hi.move hst rfl rfl (hi.ledger.push ho ht hl')
  rcases answer_cases tr ha hok with ⟨rfl, rfl, rfl⟩ | ⟨rfl, hF, _, e, rfl, he, hw⟩
  · exact ⟨.of_record rfl, .free, hpush _ (.inr ⟨_, _, rfl⟩), hQ⟩
  rcases hw with hw | ⟨a, _, rfl⟩
  · have hs : SameTasks w w' := hw ▸ giveUp_quiet _ w
    refine ⟨.of_same hs, .owns t, ?_, hX e _ hF he rfl⟩
    rw [← hd, Function.update_eq_self]
    exact hi.same hs (.inl hF)
  · exact ⟨.of_record rfl, .free, hpush _ (.inl hF), hX e _ hF he rfl⟩

def holdIn : Option Task → Hold
  | none => .free
  | some t => .owns t

theorem holdIn_owned (o : Option Task) : (holdIn o).owned = o := by cases o <;> rfl

theorem holdIn_stage (o : Option Task) : (holdIn o).stage = some .serving := by cases o <;> rfl

theorem Owned.popped {x : Text} (h : Owned F B tr w ds) (hd : ds i = .free)
    (hx : w.redis.queue.getLast? = some x) (hl : F ∨ l = .cmd i .brpop (.ok (some x))) :
    Owned F B (l :: tr) (w.onRedis fun q => { q with queue := q.queue.dropLast })
      (Function.update ds i (holdIn (parse x))) := by
  refine h.move (by rw [hd]; rfl) (holdIn_stage _) rfl ?_
  rw [holdIn_owned]
  apply h.ledger.pop _ hx hl
  rw [Function.comp_apply, hd]
  rfl

theorem wp_dequeue {Q : Option Task → σ → Hold → Prop} {X : Exc → σ → Hold → Prop}
    (hQ : ∀ o, (∀ t, o = some t → Ready t) → Q o s (holdIn o))
    (hX : ∀ e d, F → e.cls = .cancelled → d.stage = some .serving → X e s d) :
    Wp (ownership Text S F B) i TaskQueue.dequeue Q X s .free := by
  apply Wp.bind
  apply Wp.call
  intro tr w ds l r w' hi hd ha hok
  have hstay (l' : SysLabel Text Event) (hl' : F ∨ Silent l') :
      Owned F B (l' :: tr) w (Function.update ds i .free) := by
    rw [← hd, Function.update_eq_self]
    exact hi.same (.refl _) hl'
  rcases answer_cases tr ha hok with ⟨rfl, hx⟩ | ⟨rfl, hF, _, e, rfl, he, hw⟩
  · simp only [exec] at hx
    split at hx
    · obtain ⟨rfl, rfl⟩ := hx
      exact ⟨.of_same (.refl _), .free, hstay _ (.inr fun j => ⟨rfl, rfl⟩),
        Wp.pure _ (hQ none fun t ht => by cases ht)⟩
    · rename_i x hx'
      obtain ⟨rfl, rfl⟩ := hx
      refine ⟨.of_record rfl, _, hi.popped hd hx' (.inr rfl), Wp.pure _ (hQ _ fun t ht => ?_)⟩
      have hq := Redis.queued_getLast hx'
      rw [ht] at hq
      apply (hi.ledger.custody.queued t _).2.2
      rw [hq]
      exact List.mem_append_right _ (List.mem_singleton_self t)
  · rcases hw with rfl | ⟨a, hx⟩
    · exact ⟨.of_same (.refl _), .free, hstay _ (.inl hF), hX e _ hF he rfl⟩
    · simp only [exec] at hx
      split at hx
      · obtain ⟨_, rfl⟩ := hx
        exact ⟨.of_same (.refl _), .free, hstay _ (.inl hF), hX e _ hF he rfl⟩
      · rename_i x hx'
        obtain ⟨_, rfl⟩ := hx
        exact ⟨.of_record rfl, _, hi.popped hd hx' (.inl hF), hX e _ hF he (holdIn_stage _)⟩

theorem wp_setNx {t : Task} {Q : Bool → σ → Hold → Prop} {X : Exc → σ → Hold → Prop}
    (ht : Live t) (htrue : Q true s (.owns t)) (hfalse : Q false s .free)
    (hX : ∀ e d, F → e.cls = .cancelled → d.stage = some .serving → X e s d) :
    Wp (ownership Text S F B) i (ask (.setNx t.taskId (modelDumpJson t))) Q X s
      .free := by
  apply Wp.call
  intro tr w ds l r w' hi hd ha hok
  have hst : (ds i).stage = some .serving := by rw [hd]; rfl
  have ho : (Hold.owned ∘ ds) i = none := by rw [Function.comp_apply, hd]; rfl
  have hsame (l' : SysLabel Text Event) (hl' : F ∨ Silent l') :
      Owned F B (l' :: tr) w (Function.update ds i .free) := by
    rw [← hd, Function.update_eq_self]
    exact hi.same (.refl w) hl'
  have hcreate (l' : SysLabel Text Event) (hm : t.taskId ∉ w.redis.tasks)
      (hl : created l' = some t.taskId)
      (hl' : F ∨ ∃ x, l' = .cmd i (.setNx t.taskId x) (.ok true)) :
      Kept w l' (w.onRedis (·.set t.taskId (modelDumpJson t))) ∧
        Owned F B (l' :: tr) (w.onRedis (·.set t.taskId (modelDumpJson t)))
          (Function.update ds i (.owns t)) := by
    have hr : w.redis.record t.taskId = none := by
      rw [Redis.record, AList.lookup_eq_none.2 hm, Option.bind_none]
    refine ⟨.create hr hl, hi.move hst rfl rfl ?_⟩
    exact hi.ledger.create ho hr ht (hi.stages.now i _ hst) hl'
  rcases answer_cases tr ha hok with ⟨rfl, hx⟩ | ⟨rfl, hF, _, e, rfl, he, hw⟩
  · simp only [exec] at hx
    split at hx
    · obtain ⟨rfl, rfl⟩ := hx
      exact ⟨.of_same (.refl _), .free, hsame _ (.inr fun j => ⟨rfl, rfl⟩), hfalse⟩
    · rename_i hm
      obtain ⟨rfl, rfl⟩ := hx
      obtain ⟨hk, hi'⟩ := hcreate _ hm rfl (.inr ⟨_, rfl⟩)
      exact ⟨hk, _, hi', htrue⟩
  · rcases hw with rfl | ⟨a, hx⟩
    · exact ⟨.of_same (.refl _), .free, hsame _ (.inl hF), hX e _ hF he rfl⟩
    · simp only [exec] at hx
      split at hx
      · obtain ⟨_, rfl⟩ := hx
        exact ⟨.of_same (.refl _), .free, hsame _ (.inl hF), hX e _ hF he rfl⟩
      · rename_i hm
        obtain ⟨_, rfl⟩ := hx
        obtain ⟨hk, hi'⟩ := hcreate
          (.abort i (.setNx t.taskId (modelDumpJson t)) (.error e)) hm rfl (.inl hF)
        exact ⟨hk, _, hi', hX e _ hF he rfl⟩

/-- The recovery remembers the record it has read, if it is live. -/
def scanOf (o : Option Text) : Hold := .scans ((o.bind parse).filter fun t => !t.isTerminal)

theorem wp_scanGet {id : String} {Q : Option Text → σ → Hold → Prop}
    {X : Exc → σ → Hold → Prop} (hd : d.stage = some .recovering)
    (hQ : ∀ o, B ∨ o = none → Q o s (scanOf o)) (hX : ∀ e, X e s d) :
    Wp (ownership Text S F B) i (ask (.get id)) Q X s d := by
  apply Wp.call
  intro tr w ds l r w' hi hds ha hok
  obtain ⟨hk, hsame⟩ := quiet_answer (c := .get id) rfl hi ha hok
  rcases answer_cases tr ha hok with ⟨rfl, rfl, rfl⟩ | ⟨rfl, _, _, e, rfl, _, _⟩
  · have hst : (ds i).stage = some .recovering := by rw [hds, hd]
    refine ⟨hk, scanOf (w'.redis.tasks.lookup id), ?_, hQ _ ?_⟩
    · refine hi.rescan hst rfl (hi.alone hst ▸ hsame.ledger) fun t ht => ?_
      obtain ⟨hr, ht⟩ := Option.filter_eq_some_iff.1 ht
      rw [hi.ledger.custody.keyed id t hr]
      exact ⟨hr, by simpa [Live] using ht⟩
    · refine hi.ledger.fresh.imp_right fun hf => ?_
      rcases hf with hf | hf
      · rw [hi.stages.now i _ hst] at hf
        cases hf
      · rw [hf, AList.lookup_empty]
  · refine ⟨hk, d, ?_, hX e⟩
    rwa [← hds, Function.update_eq_self]

theorem wp_scanSet {t u : Task} {Q : Unit → σ → Hold → Prop} {X : Exc → σ → Hold → Prop}
    (hB : B) (hu : u.status = .running) (hs : u.SameTask t) (ht : t.status = .interrupted)
    (hQ : Q () s (.scans (some t))) :
    Wp (ownership Text S F B) i (ask (.set t.taskId (modelDumpJson t))) Q X s
      (.scans (some u)) := by
  apply Wp.call
  intro tr w ds l r w' hi hd ha hok
  rcases answer_cases tr ha hok with ⟨rfl, rfl, rfl⟩ | ⟨_, _, hw, _⟩
  · have hst : (ds i).stage = some .recovering := by rw [hd]; rfl
    have hr := (hi.scanned i u hd).1
    rw [hs.1] at hr
    -- a running task is not in the queue
    have hq : t.taskId ∉ w.redis.queued.map Task.taskId := by
      intro hm
      obtain ⟨v, hv, he⟩ := List.mem_map.1 hm
      obtain ⟨hv', _, hv⟩ := hi.ledger.custody.queued v hv
      rw [he, hr] at hv'
      cases hv'
      rw [Ready, hu] at hv
      rcases hv with hv | hv <;> cases hv
    refine ⟨.set hr hs (by rw [hu, ht]; exact .interrupt), _, ?_, hQ⟩
    refine hi.rescan hst rfl ((hi.alone hst ▸ hi.ledger).rewrite hB hr hq) fun v hv => ?_
    cases hv
    simp only [World.onRedis, Redis.record_set_dump, Function.update_self, true_and]
    exact Ready.live (.inr ht)
  · cases hw

theorem wp_scanUpdate {t u : Task} {Q : Unit → σ → Hold → Prop} {X : Exc → σ → Hold → Prop}
    (hB : B) (hu : u.status = .running) (hs : u.SameTask t) (ht : t.status = .interrupted)
    (hQ : Q () s (.scans (some t))) :
    Wp (ownership Text S F B) i (TaskStore.asyncUpdate S t) Q X s
      (.scans (some u)) := by
  apply Wp.bind
  refine wp_scanSet hB hu hs ht ?_
  split
  · exact wp_sure rfl fun _ => hQ
  · exact Wp.pure _ hQ

theorem wp_scanEnqueue {t : Task} {Q : Unit → σ → Hold → Prop} {X : Exc → σ → Hold → Prop}
    (hB : B) (ht : Ready t) (hQ : Q () s (.scans none))
    (hX : ∀ e d, d.stage = some .recovering → X e s d) :
    Wp (ownership Text S F B) i (TaskQueue.enqueue t) Q X s (.scans (some t)) := by
  apply Wp.call
  intro tr w ds l r w' hi hd ha hok
  have hst : (ds i).stage = some .recovering := by rw [hd]; rfl
  have hr := (hi.scanned i t hd).1
  have hput (l' : SysLabel Text Event) (hq : Unqueued w (modelDumpJson t : Text)) :
      Owned F B (l' :: tr) (w.onRedis (·.lpush (modelDumpJson t)))
        (Function.update ds i (.scans none)) := by
    have hq := hq (hi.stages.now i _ hst) t (parse_dump t)
    exact hi.rescan hst rfl ((hi.alone hst ▸ hi.ledger).requeue hB hr ht hq) nofun
  rcases answer_cases tr ha hok with ⟨rfl, rfl, rfl⟩ | ⟨rfl, hF, _, e, rfl, he, hw⟩
  · exact ⟨.of_record rfl, _, hput _ (hok hB), hQ⟩
  · rcases hw with hw | ⟨a, _, rfl⟩
    · have hs : SameTasks w w' := hw ▸ giveUp_quiet _ w
      refine ⟨.of_same hs, .scans (some t), ?_, hX e _ rfl⟩
      rw [← hd, Function.update_eq_self]
      exact hi.same hs (.inl hF)
    · exact ⟨.of_record rfl, .scans none, hput _ (hok.2.2 _ rfl), hX e _ rfl⟩

end

end

end Orchestrator
