import Orchestrator.Holding
import Orchestrator.Schedule
import Orchestrator.Concurrency.Custody
import Orchestrator.Concurrency.Eval
import Orchestrator.Concurrency.Monitor

namespace Orchestrator
open Concurrency Async Progress
set_option autoImplicit true

namespace Task

def digest (S : Setup Event) (t : Task) : String := digestKey S t.projectName t.requirement

/-- The task is to be found by its digest. -/
def Sought (t : Task) : Prop := t.isTerminal = false ∧ t.requirement ≠ ""

instance (t : Task) : Decidable t.Sought := inferInstanceAs (Decidable (_ ∧ _))

/-- The text that is hashed can be split into a project and a requirement in one way only. -/
def Separable (t : Task) : Prop :=
  '\x00' ∉ t.projectName.toList ∧ '\x00' ∉ t.requirement.toList

instance (t : Task) : Decidable t.Separable := inferInstanceAs (Decidable (_ ∧ _))

theorem SameTask.digest {t u : Task} {S : Setup Event} (h : SameTask t u) :
    t.digest S = u.digest S := by
  rw [Task.digest, Task.digest, h.2.1, h.2.2]

theorem Separable.same {t u : Task} (ht : t.Separable) (h : SameTask u t) : u.Separable := by
  rw [Separable, h.2.1, h.2.2]
  exact ht

/-- Equal digests come from equal pairs. -/
theorem Separable.pair {t : Task} {S : Setup Event} {p r : String} (ht : t.Separable)
    (hS : Function.Injective S.sha256) (h : t.digest S = digestKey S p r) :
    t.projectName = p ∧ t.requirement = r := by
  have hl := congrArg String.toList (hS h)
  rw [String.toList_append, String.toList_append, String.toList_append, String.toList_append,
    List.append_assoc, List.append_assoc] at hl
  obtain ⟨hp, _, hr⟩ := (List.append_cons_inj_of_notMem ht.1 ht.2).1 hl
  exact ⟨String.toList_inj.1 hp, String.toList_inj.1 hr⟩

end Task

section
variable [TaskJson Text]

/-- The task whose `save` in process `i` is between its `SET NX` and the `SET` of its digest. -/
def registers : Monitor (Cmd Text Event) Cmd.Answer (Option Task) where
  init := none
  cmd d c r :=
    match c, r with
    | .setNx _ x, .ok true => (parse x).filter fun t => t.requirement ≠ ""
    | .setDigest .., _ => none
    | _, _ => d
  abort d c _ :=
    match c with
    | .sadd .. | .setDigest .. => none
    | _ => d

/-- The finished task whose `update` in process `i` is between its `SET` and the `DEL` of its
digest. -/
def clears : Monitor (Cmd Text Event) Cmd.Answer (Option Task) where
  init := none
  cmd d c _ :=
    match c with
    | .set _ x => (parse x).filter fun t => t.isTerminal ∧ t.requirement ≠ ""
    | .delDigest _ => none
    | _ => d
  abort d c _ :=
    match c with
    | .delDigest _ => none
    | _ => d

/-- A finished task stays finished. -/
def Final (w w' : World Text Event) : Prop :=
  ∀ id ∈ w.redis.tasks.keys, ∀ t ∈ w.redis.record id, t.isTerminal = true →
    ∀ u ∈ w'.redis.record id, u.isTerminal = true

/-- No task is to be found by this digest, other than tasks whose `save` is not done. -/
def Deserted (S : Setup Event) (tr : List (SysLabel Text Event)) (w : World Text Event)
    (h : String) : Prop :=
  ∀ id ∈ w.redis.tasks.keys, ∀ t ∈ w.redis.record id, t.Sought → t.digest S = h →
    ∃ i ∈ Monitor.actors tr, (registers.read i tr).map Task.taskId = some id

/-- What process `i` was about to do to a digest has no effect any more. -/
def NoEffect (S : Setup Event) (tr : List (SysLabel Text Event)) (w : World Text Event) (i : Nat) :
    Prop :=
  (∀ t ∈ registers.read i tr, w.redis.digests (t.digest S) ≠ none) ∧
    ∀ t ∈ clears.read i tr, w.redis.digests (t.digest S) ≠ some t.taskId

/-- The digest that a step deletes, if Redis carries it out. -/
def deletes : SysLabel Text Event → Option String
  | .cmd _ (.delDigest h) _ | .abort _ (.delDigest h) _ => some h
  | _ => none

/-- The new record that a step stores, if the key is free. -/
def stores : SysLabel Text Event → Option Text
  | .cmd _ (.setNx _ x) _ => some x
  | _ => none

/-- The new record that a process sends without getting a reply. -/
def unanswered : SysLabel Text Event → Option (String × Text)
  | .abort _ (.setNx id x) _ => some (id, x)
  | _ => none

/-- The record that a process rewrites without getting a reply. -/
def unwritten : SysLabel Text Event → Option String
  | .abort _ (.set id _) _ => some id
  | _ => none

/-- A `save` or an `update` is cut short only where the digest does not depend on the rest, and a
digest is deleted only when no other task needs it. -/
def keepsDigests (S : Setup Event) : Filter Text Event := fun tr w l w' =>
  Final w w' ∧ (∀ h ∈ deletes l, w'.redis.digests h = none → Deserted S tr w h) ∧
    (∀ x ∈ stores l, ∀ t ∈ parse x, t.requirement ≠ "" → t.Separable) ∧
    (∀ p ∈ unanswered l, ∀ t ∈ parse p.2, t.requirement ≠ "" →
      p.1 ∈ w'.redis.tasks → p.1 ∈ w.redis.tasks) ∧
    (∀ id ∈ unwritten l, ∀ t ∈ w'.redis.record id, t.isTerminal = true →
      w'.redis.digests (t.digest S) ≠ some id) ∧
    match l with
    | .abort i _ _ => NoEffect S tr w' i
    | .halt => ∀ i, NoEffect S tr w' i
    | _ => True

/-- A digest names a task of its pair that is not finished, and every such task is found. -/
structure DigestLaw (S : Setup Event) (w : World Text Event) : Prop where
  names : ∀ p r id, w.redis.digests (digestKey S p r) = some id → ∃ t,
    w.redis.record id = some t ∧ t.projectName = p ∧ t.requirement = r ∧ t.isTerminal = false
  found : ∀ p r t w',
    ((TaskStore.findByDigest S p r : Py Text Event Unit _) ()).Eval exec w (.ok (some t), ()) w' →
      t.isTerminal = false
  present : ∀ id t, w.redis.record id = some t → t.isTerminal = false → t.requirement ≠ "" →
    ∃ id' u, w.redis.digests (digestKey S t.projectName t.requirement) = some id' ∧
      w.redis.record id' = some u ∧ u.isTerminal = false

theorem get_eval {id : String} {w w' : World Text Event} {t : Task}
    (h : ((TaskStore.get id : Py Text Event Unit _) ()).Eval exec w (.ok (some t), ()) w') :
    w.redis.record id = some t := by
  obtain ⟨_, _, w₁, hc, h⟩ := eval_bind.1 h
  obtain ⟨_, ⟨rfl, hw⟩, ho⟩ := eval_call.1 hc
  cases ho
  rw [Redis.record]
  generalize w.redis.tasks.lookup id = o at h
  cases o with
  | none => cases (eval_pure.1 h).1
  | some x =>
    cases hx : (modelValidateJson x : Except String Task) with
    | error msg =>
      simp only [hx] at h
      cases (Coro.eval_ret.1 h).1
    | ok u =>
      simp only [hx] at h
      cases (eval_pure.1 h).1
      exact parse_eq_some.2 hx

theorem findByDigest_eval {S : Setup Event} {p r : String} {w w' : World Text Event} {t : Task}
    (h : ((TaskStore.findByDigest S p r : Py Text Event Unit _) ()).Eval exec w
      (.ok (some t), ()) w') :
    ∃ id, w.redis.digests (digestKey S p r) = some id ∧ w.redis.record id = some t := by
  obtain ⟨_, _, w₁, hc, h⟩ := eval_bind.1 h
  obtain ⟨_, ⟨rfl, hw⟩, ho⟩ := eval_call.1 hc
  cases ho
  rw [hw] at h
  generalize w.redis.digests (digestKey S p r) = o at h
  cases o with
  | none => cases (eval_pure.1 h).1
  | some id => exact ⟨id, rfl, get_eval h⟩

namespace Progress

/-- What the monitor `registers` reads of a process. -/
def registering : Progress → Option Task
  | .stored t => if t.requirement = "" then none else some t
  | .indexed t => some t
  | _ => none

/-- What the monitor `clears` reads of a process. -/
def clearing : Progress → Option Task
  | .finishing t => some t
  | _ => none

theorem task_of_registering {d : Progress} {t : Task} (h : d.registering = some t) :
    d.task = some t := by
  cases d with
  | stored u =>
    simp only [registering] at h
    split at h
    · cases h
    · exact h
  | indexed u => exact h
  | _ => cases h

theorem task_of_clearing {d : Progress} {t : Task} (h : d.clearing = some t) :
    d.task = some t := by
  cases d with
  | finishing u => exact h
  | _ => cases h

end Progress

theorem registers_move {S : Setup Event} {c : Cmd Text Event} {r : c.Answer}
    (hm : Move S d c r d') :
    (∀ w w', exec c r w w' → registers.cmd d.registering c r = d'.registering) ∧
      ((∃ e, r = .error e) → registers.abort d.registering c r = d'.registering) := by
  have hnone {o : Option Task} (h : o = none) :
      (∀ w w', exec c r w w' → none = o) ∧ ((∃ e, r = .error e) → none = o) :=
    ⟨fun _ _ _ => h.symm, fun _ => h.symm⟩
  cases hm with
  | background hc =>
    cases c with
    | setNx _ _ | sadd _ _ | setDigest _ _ => cases hc
    | _ => exact ⟨fun _ _ _ => rfl, fun _ => rfl⟩
  | store hs hn =>
    rename_i t r
    rcases r with e | _ | _
    · exact ⟨fun _ _ _ => rfl, fun _ => rfl⟩
    · exact ⟨fun _ _ _ => rfl, fun _ => rfl⟩
    · constructor
      · intro _ _ _
        simp only [registers, parse_dump, Option.filter_some, granted, registering, ↓reduceIte,
          decide_not, Bool.not_eq_true', decide_eq_false_iff_not, ite_not, ne_eq]
      · rintro ⟨e, he⟩
        cases he
  | index =>
    rename_i t r
    rcases r with e | _
    · refine ⟨fun _ _ hx => ?_, fun _ => rfl⟩
      cases hx.1
    · constructor
      · intro _ _ _
        simp only [registers, registering, settle, entered]
        split <;> rfl
      · rintro ⟨e, he⟩
        cases he
  | register _ => exact hnone (settle_eq rfl fun _ => rfl)
  | acquire => exact hnone (granted_eq rfl rfl rfl)
  | reject _ _ | succeed _ _ | fail _ _ _ | abandon _ _ _ =>
    exact hnone (settle_eq (finished_eq rfl rfl) fun _ => rfl)
  | wait => exact hnone (settle_eq rfl fun _ => cutShort_eq fun _ => rfl)
  | clear => exact hnone (settle_eq rfl fun _ => unclear_eq (fun _ => rfl) rfl)
  | mark _ _ _ | run _ _ | start | halt _ _ | hangUp | retry _ _ _ _ =>
    exact hnone (settle_eq rfl fun _ => rfl)
  | _ => exact hnone rfl

theorem clears_move {S : Setup Event} {c : Cmd Text Event} {r : c.Answer}
    (hm : Move S d c r d') :
    (∀ w w', exec c r w w' → clears.cmd d.clearing c r = d'.clearing) ∧
      ((∃ e, r = .error e) → clears.abort d.clearing c r = d'.clearing) := by
  have hnone {o : Option Task} (h : o = none) :
      (∀ w w', exec c r w w' → none = o) ∧ ((∃ e, r = .error e) → none = o) :=
    ⟨fun _ _ _ => h.symm, fun _ => h.symm⟩
  have hset {u : Task} {r : Except Exc Unit} {g : Progress} {f : Exc → Progress}
      (hg : (some u).filter (fun t => t.isTerminal ∧ t.requirement ≠ "") = g.clearing)
      (hf : ∀ e, (f e).clearing = none) :
      (∀ w w', exec (.set u.taskId (modelDumpJson u) : Cmd Text Event) r w w' →
        ((parse (modelDumpJson u : Text)).filter fun t => t.isTerminal ∧ t.requirement ≠ "") =
          (settle r g f).clearing) ∧
      ((∃ e, r = .error e) → none = (settle r g f).clearing) := by
    constructor
    · intro w w' hx
      rw [parse_dump, hg, hx.1]
      rfl
    · rintro ⟨e, rfl⟩
      exact (hf e).symm
  have hopen {u : Task} {g : Progress} (hu : u.status.isTerminal = false) (hg : g.clearing = none) :
      (some u).filter (fun t => t.isTerminal ∧ t.requirement ≠ "") = g.clearing := by
    rw [hg, Option.filter_some, Task.isTerminal, hu]
    rfl
  have hdone {u : Task} (hu : u.status.isTerminal = true) :
      (some u).filter (fun t => t.isTerminal ∧ t.requirement ≠ "") = (finished u).clearing := by
    rw [Option.filter_some, Task.isTerminal, hu, finished]
    by_cases hr : u.requirement = ""
    · rw [if_pos hr, if_neg (by simp only [hr, ne_eq, not_true_eq_false, and_false, decide_false,
        Bool.false_eq_true, not_false_eq_true])]
      rfl
    · rw [if_neg hr, if_pos (by simp only [hr, ne_eq, not_false_eq_true, and_self, decide_true])]
      rfl
  cases hm with
  | background hc =>
    cases c with
    | set _ _ | delDigest _ => cases hc
    | _ => exact ⟨fun _ _ _ => rfl, fun _ => rfl⟩
  | mark _ _ hs | run _ hs | halt _ hs | retry _ _ _ hs =>
    exact hset (hopen (by rw [hs]; rfl) rfl) fun _ => rfl
  | reject _ hs | succeed _ hs | fail _ _ hs | abandon _ _ hs =>
    exact hset (hdone (by rw [hs]; rfl)) fun _ => rfl
  | clear =>
    rename_i r
    rcases r with e | _
    · refine ⟨fun _ _ hx => ?_, fun _ => ?_⟩
      · cases hx.1
      · exact (unclear_eq (p := clearing) (fun _ => rfl) rfl).symm
    · exact hnone rfl
  | acquire => exact hnone (granted_eq rfl rfl rfl)
  | store _ _ => exact hnone (granted_eq rfl rfl rfl)
  | index => exact hnone (settle_eq (entered_eq rfl rfl) fun _ => rfl)
  | wait => exact hnone (settle_eq rfl fun _ => cutShort_eq fun _ => rfl)
  | register _ | start | hangUp => exact hnone (settle_eq rfl fun _ => rfl)
  | _ => exact hnone rfl

theorem Move.writes_beside {S : Setup Event} {c : Cmd Text Event} {r : c.Answer} {x : Text}
    {id : String} (hm : Move S d c r d') (hc : c = .set id x) :
    d.registering = none ∧ d'.registering = none ∧ d.clearing = none := by
  cases hm with
  | background hb =>
    rw [hc] at hb
    cases hb
  | mark _ _ _ | run _ _ | halt _ _ | retry _ _ _ _ =>
    exact ⟨rfl, settle_eq rfl fun _ => rfl, rfl⟩
  | reject _ _ | succeed _ _ | fail _ _ _ | abandon _ _ _ =>
    exact ⟨rfl, settle_eq (finished_eq rfl rfl) fun _ => rfl, rfl⟩
  | _ => cases hc

theorem Move.task_quiet {S : Setup Event} {c : Cmd Text Event} {r : c.Answer}
    (hm : Move S d c r d') (hc : c.quiet = true) (hd : d ≠ .scanning) (hu : d'.task = some u) :
    d.task = some u := by
  rcases hm.carries with h | h
  · cases h with
    | aside _ ht => exact ht u hu
    | write _ _ _ | push _ _ => cases hc
  · cases h with
    | read _ _ => exact absurd rfl hd
    | store _ _ | pop _ | popNothing _ => cases hc

/-- The stored record is one of the same task. -/
def Stands (w : World Text Event) (t : Task) : Prop :=
  ∃ u, w.redis.record t.taskId = some u ∧ u.SameTask t

/-- A move that leaves the stored records what they stand for. -/
theorem stands_inHand {ds : Nat → Progress} {i : Nat} {d : Progress} {w w' : World Text Event}
    (h : ∀ j t, (ds j).task = some t → Stands w t) (hw : ∀ t, Stands w t → Stands w' t)
    (hd : ∀ t, d.task = some t → Stands w' t) (j : Nat) (t : Task)
    (ht : (Function.update ds i d j).task = some t) : Stands w' t := by
  by_cases hji : j = i
  · rw [hji, Function.update_self] at ht
    exact hd t ht
  · rw [Function.update_of_ne hji] at ht
    exact hw t (h j t ht)

/-- Digests and records agree, up to what the processes are about to do. -/
structure Indexed (S : Setup Event) (tr : List (SysLabel Text Event)) (w : World Text Event)
    (ds : Nat → Progress) : Prop where
  keyed : ∀ id t, w.redis.record id = some t → t.taskId = id
  queued : ∀ t ∈ w.redis.queued, Stands w t
  inHand : ∀ i t, (ds i).task = some t → Stands w t
  stages : Stages w.stage (Progress.hold ∘ ds)
  fresh : ∀ i t, (ds i).registering = some t →
    (∃ u, w.redis.record t.taskId = some u ∧ u.isTerminal = false) ∧
      (∀ v ∈ w.redis.queued, v.taskId ≠ t.taskId) ∧
        ∀ j v, j ≠ i → (ds j).task = some v → v.taskId ≠ t.taskId
  separable : ∀ id t, w.redis.record id = some t → t.requirement ≠ "" → t.Separable
  names : ∀ h id, w.redis.digests h = some id → ∃ t, w.redis.record id = some t ∧
    t.digest S = h ∧ t.requirement ≠ "" ∧
      (t.isTerminal = false ∨ ∃ i u, (ds i).clearing = some u ∧ u.taskId = id)
  present : ∀ id t, w.redis.record id = some t → t.Sought →
    w.redis.digests (t.digest S) ≠ none ∨ ∃ i u, (ds i).registering = some u ∧ u.taskId = id
  registers : (registers : Monitor (Cmd Text Event) Cmd.Answer _).Follows Progress.registering tr ds
  clears : (clears : Monitor (Cmd Text Event) Cmd.Answer _).Follows Progress.clearing tr ds

/-- No other process is about to register this task. -/
def Apart (ds : Nat → Progress) (i : Nat) (v : Task) : Prop :=
  ∀ j t, j ≠ i → (ds j).registering = some t → v.taskId ≠ t.taskId

namespace Indexed
variable {S : Setup Event} {tr : List (SysLabel Text Event)} {w w' : World Text Event}
  {ds : Nat → Progress} {l : SysLabel Text Event} {i : Nat} {d : Progress} {t u : Task}

theorem apart_inHand (h : Indexed S tr w ds) (ht : (ds i).task = some t)
    (hu : u.taskId = t.taskId) : Apart ds i u := by
  intro j v hj hv
  rw [hu]
  exact (h.fresh j v hv).2.2 i t (Ne.symm hj) ht

theorem apart_queued (h : Indexed S tr w ds) (ht : t ∈ w.redis.queued) : Apart ds i t :=
  fun j v _ hv => (h.fresh j v hv).2.1 t ht

/-- A process that has the task in hand has the identity of its record. -/
theorem same_record (h : Indexed S tr w ds) {id : String} (ht : (ds i).task = some t)
    (hid : t.taskId = id) (hu : w.redis.record id = some u) : u.SameTask t := by
  obtain ⟨v, hv, hs⟩ := h.inHand i t ht
  rw [hid, hu] at hv
  cases hv
  exact hs

/-- A step that writes no record. -/
theorem shift (h : Indexed S tr w ds) (hw : w'.redis.record = w.redis.record)
    (hs : Stages w'.stage (Progress.hold ∘ Function.update ds i d))
    (hq : ∀ v ∈ w'.redis.queued, v ∈ w.redis.queued ∨
      Stands w v ∧ Apart ds i v ∧ d.registering = none)
    (ht : ∀ v, d.task = some v → Stands w v ∧ Apart ds i v)
    (hreg : ∀ t, d.registering = some t → (ds i).registering = some t)
    (hreg' : ∀ t, (ds i).registering = some t → d.registering = some t ∨
      w'.redis.digests (t.digest S) ≠ none)
    (hclr : ∀ t, (ds i).clearing = some t → d.clearing = some t ∨
      w'.redis.digests (t.digest S) ≠ some t.taskId)
    (hnames : ∀ k id, w'.redis.digests k = some id → w.redis.digests k = some id ∨
      ∃ t, w.redis.record id = some t ∧ t.digest S = k ∧ t.Sought)
    (hpresent : ∀ id t, w.redis.record id = some t → t.Sought →
      w.redis.digests (t.digest S) ≠ none → w'.redis.digests (t.digest S) ≠ none ∨
        ∃ j u, (ds j).registering = some u ∧ u.taskId = id)
    (hf₁ : (Orchestrator.registers : Monitor (Cmd Text Event) Cmd.Answer _).Follows
      Progress.registering (l :: tr) (Function.update ds i d))
    (hf₂ : (Orchestrator.clears : Monitor (Cmd Text Event) Cmd.Answer _).Follows
      Progress.clearing (l :: tr) (Function.update ds i d)) :
    Indexed S (l :: tr) w' (Function.update ds i d) := by
  have hregistering {id : String} {t : Task} (hr : w.redis.record id = some t)
      (hj : ∃ j u, (ds j).registering = some u ∧ u.taskId = id) :
      w'.redis.digests (t.digest S) ≠ none ∨
        ∃ j u, (Function.update ds i d j).registering = some u ∧ u.taskId = id := by
    obtain ⟨j, u, hj, hu⟩ := hj
    by_cases hji : j = i
    · subst hji
      rcases hreg' u hj with hd | hd
      · exact .inr ⟨j, u, by rw [Function.update_self, hd], hu⟩
      · rw [← (h.same_record (task_of_registering hj) hu hr).digest] at hd
        exact .inl hd
    · exact .inr ⟨j, u, by rw [Function.update_of_ne hji, hj], hu⟩
  constructor
  · rw [hw]
    exact h.keyed
  · intro v hv
    rw [Stands, hw]
    exact (hq v hv).elim (h.queued v) fun hv => hv.1
  · refine stands_inHand h.inHand (fun v hv => ?_) fun v hv => ?_
    · rwa [Stands, hw]
    · rw [Stands, hw]
      exact (ht v hv).1
  · exact hs
  · intro j t hj
    rw [hw]
    by_cases hji : j = i
    · subst hji
      rw [Function.update_self] at hj
      obtain ⟨h₁, h₂, h₃⟩ := h.fresh j t (hreg t hj)
      refine ⟨h₁, fun v hv => ?_, fun k v hk hv => ?_⟩
      · rcases hq v hv with hv | ⟨_, _, hn⟩
        · exact h₂ v hv
        · cases hn.symm.trans hj
      · rw [Function.update_of_ne hk] at hv
        exact h₃ k v hk hv
    · rw [Function.update_of_ne hji] at hj
      obtain ⟨h₁, h₂, h₃⟩ := h.fresh j t hj
      refine ⟨h₁, fun v hv => ?_, fun k v hk hv => ?_⟩
      · rcases hq v hv with hv | ⟨_, ha, _⟩
        · exact h₂ v hv
        · exact ha j t hji hj
      · by_cases hki : k = i
        · rw [hki, Function.update_self] at hv
          exact (ht v hv).2 j t hji hj
        · rw [Function.update_of_ne hki] at hv
          exact h₃ k v hk hv
  · rw [hw]
    exact h.separable
  · intro k id hk
    rw [hw]
    rcases hnames k id hk with ho | ⟨t, hr, hd, hso⟩
    · obtain ⟨t, hr, hd, hne, hlive | ⟨j, u, hj, hu⟩⟩ := h.names k id ho
      · exact ⟨t, hr, hd, hne, .inl hlive⟩
      · refine ⟨t, hr, hd, hne, .inr ?_⟩
        by_cases hji : j = i
        · subst hji
          rcases hclr u hj with hc | hc
          · exact ⟨j, u, by rw [Function.update_self, hc], hu⟩
          · rw [← (h.same_record (task_of_clearing hj) hu hr).digest, hd, hu] at hc
            exact absurd hk hc
        · exact ⟨j, u, by rw [Function.update_of_ne hji, hj], hu⟩
    · exact ⟨t, hr, hd, hso.2, .inl hso.1⟩
  · intro id t hr hso
    rw [hw] at hr
    rcases h.present id t hr hso with hd | hj
    · rcases hpresent id t hr hso hd with hd | hj
      · exact .inl hd
      · exact hregistering hr hj
    · exact hregistering hr hj
  · exact hf₁
  · exact hf₂

/-- The task in hand is written. -/
theorem write (h : Indexed S tr w ds) (ht : (ds i).task = some t) (hu : u.SameTask t)
    (hs : Stages w.stage (Progress.hold ∘ Function.update ds i d))
    (hfinal : ∀ v, w.redis.record u.taskId = some v → v.isTerminal = true → u.isTerminal = true)
    (hd : ∀ v, d.task = some v → v = u) (hreg : (ds i).registering = none)
    (hreg' : d.registering = none) (hclr : (ds i).clearing = none)
    (hclr' : u.isTerminal = true → u.requirement ≠ "" → d.clearing = some u ∨
      w.redis.digests (u.digest S) ≠ some u.taskId)
    (hf₁ : (Orchestrator.registers : Monitor (Cmd Text Event) Cmd.Answer _).Follows
      Progress.registering (l :: tr) (Function.update ds i d))
    (hf₂ : (Orchestrator.clears : Monitor (Cmd Text Event) Cmd.Answer _).Follows
      Progress.clearing (l :: tr) (Function.update ds i d)) :
    Indexed S (l :: tr) (w.onRedis (·.set u.taskId (modelDumpJson u)))
      (Function.update ds i d) := by
  obtain ⟨v, hv, hvt⟩ := h.inHand i t ht
  rw [← hu.1] at hv
  have hvu : u.SameTask v := hu.trans hvt.symm
  have hrec : (w.redis.set u.taskId (modelDumpJson u)).record =
      Function.update w.redis.record u.taskId (some u) := Redis.record_set_dump ..
  have hknown (x : Task) (hx : Stands w x) :
      Stands (w.onRedis (·.set u.taskId (modelDumpJson u))) x := by
    obtain ⟨y, hy, hyx⟩ := hx
    rw [Stands, World.onRedis, hrec]
    by_cases hid : x.taskId = u.taskId
    · rw [hid, hv] at hy
      cases hy
      exact ⟨u, by rw [hid, Function.update_self], hvu.trans hyx⟩
    · exact ⟨y, by rw [Function.update_of_ne hid, hy], hyx⟩
  constructor
  · exact Redis.keyed_set_dump h.keyed u
  · exact fun x hx => hknown x (h.queued x hx)
  · refine stands_inHand h.inHand hknown fun x hx => ?_
    rw [hd x hx, Stands, World.onRedis, hrec]
    exact ⟨u, Function.update_self .., .refl u⟩
  · exact hs
  · intro j x hj
    have hji : j ≠ i := by
      rintro rfl
      rw [Function.update_self, hreg'] at hj
      cases hj
    rw [Function.update_of_ne hji] at hj
    obtain ⟨h₁, h₂, h₃⟩ := h.fresh j x hj
    have hne : x.taskId ≠ u.taskId := by
      rw [hu.1]
      exact (h₃ i t (Ne.symm hji) ht).symm
    refine ⟨?_, h₂, fun k y hk hy => ?_⟩
    · rw [World.onRedis, hrec, Function.update_of_ne hne]
      exact h₁
    · by_cases hki : k = i
      · rw [hki, Function.update_self] at hy
        rw [hd y hy]
        exact hne.symm
      · rw [Function.update_of_ne hki] at hy
        exact h₃ k y hk hy
  · intro id x hx hr
    rw [World.onRedis, hrec] at hx
    rcases update_eq_iff.1 hx with ⟨_, he⟩ | ⟨_, hx⟩
    · cases he
      exact (h.separable _ v hv (hvu.2.2 ▸ hr)).same hvu
    · exact h.separable id x hx hr
  · intro k id hk
    rw [World.onRedis, hrec]
    obtain ⟨x, hx, hxk, hne, hlive⟩ := h.names k id hk
    by_cases hid : id = u.taskId
    · subst hid
      cases hv.symm.trans hx
      refine ⟨u, Function.update_self .., hvu.digest.trans hxk, hvu.2.2 ▸ hne, ?_⟩
      cases hterm : u.isTerminal with
      | false => exact .inl rfl
      | true =>
        rcases hclr' hterm (hvu.2.2 ▸ hne) with hc | hc
        · exact .inr ⟨i, u, by rw [Function.update_self, hc], rfl⟩
        · rw [hvu.digest, hxk] at hc
          exact absurd hk hc
    · refine ⟨x, by rw [Function.update_of_ne hid, hx], hxk, hne, hlive.imp_right ?_⟩
      rintro ⟨j, y, hj, hy⟩
      have hji : j ≠ i := by
        rintro rfl
        cases hclr.symm.trans hj
      exact ⟨j, y, by rw [Function.update_of_ne hji, hj], hy⟩
  · intro id x hx hso
    have hold (y : Task) (hy : w.redis.record id = some y) (hyx : y.Sought)
        (hd : x.digest S = y.digest S) : w.redis.digests (x.digest S) ≠ none ∨
          ∃ j v, (Function.update ds i d j).registering = some v ∧ v.taskId = id := by
      rw [hd]
      apply (h.present id y hy hyx).imp_right
      rintro ⟨j, z, hj, hz⟩
      have hji : j ≠ i := by
        rintro rfl
        cases hreg.symm.trans hj
      exact ⟨j, z, by rw [Function.update_of_ne hji, hj], hz⟩
    rw [World.onRedis, hrec] at hx
    rcases update_eq_iff.1 hx with ⟨rfl, he⟩ | ⟨_, hx⟩
    · cases he
      apply hold v hv _ hvu.digest
      refine ⟨Bool.eq_false_iff.2 fun hterm => ?_, hvu.2.2 ▸ hso.2⟩
      cases (hfinal v hv hterm).symm.trans hso.1
    · exact hold x hx hso rfl
  · exact hf₁
  · exact hf₂

/-- A new task is stored. If it is to be found by its digest, the process has it in hand. -/
theorem create (h : Indexed S tr w ds) (hid : t.taskId ∉ w.redis.tasks) (ht : t.status = .pending)
    (hs : Stages w.stage (Progress.hold ∘ Function.update ds i d))
    (hd : ∀ v, d.task = some v → v = t) (hi : (ds i).task = none)
    (hreg : t.requirement ≠ "" → d.registering = some t ∧ t.Separable)
    (hf₁ : (Orchestrator.registers : Monitor (Cmd Text Event) Cmd.Answer _).Follows
      Progress.registering (l :: tr) (Function.update ds i d))
    (hf₂ : (Orchestrator.clears : Monitor (Cmd Text Event) Cmd.Answer _).Follows
      Progress.clearing (l :: tr) (Function.update ds i d)) :
    Indexed S (l :: tr) (w.onRedis (·.set t.taskId (modelDumpJson t)))
      (Function.update ds i d) := by
  have hnone : w.redis.record t.taskId = none := by
    rw [Redis.record, AList.lookup_eq_none.2 hid]
    rfl
  have hrec : (w.redis.set t.taskId (modelDumpJson t)).record =
      Function.update w.redis.record t.taskId (some t) := Redis.record_set_dump ..
  have hne {id : String} {x : Task} (hx : w.redis.record id = some x) : id ≠ t.taskId := by
    rintro rfl
    cases hnone.symm.trans hx
  have hother {x : Task} (hx : Stands w x) : x.taskId ≠ t.taskId := by
    obtain ⟨y, hy, _⟩ := hx
    exact hne hy
  have hknown (x : Task) (hx : Stands w x) :
      Stands (w.onRedis (·.set t.taskId (modelDumpJson t))) x := by
    have hxt := hother hx
    obtain ⟨y, hy, hyx⟩ := hx
    rw [Stands, World.onRedis, hrec]
    exact ⟨y, by rw [Function.update_of_ne hxt, hy], hyx⟩
  have hlive : t.isTerminal = false := by
    rw [Task.isTerminal, ht]
    rfl
  have hidle {x : Task} (hx : (ds i).clearing = some x ∨ (ds i).registering = some x) : False := by
    rcases hx with hx | hx
    · cases hi.symm.trans (task_of_clearing hx)
    · cases hi.symm.trans (task_of_registering hx)
  constructor
  · exact Redis.keyed_set_dump h.keyed t
  · exact fun x hx => hknown x (h.queued x hx)
  · refine stands_inHand h.inHand hknown fun x hx => ?_
    rw [hd x hx, Stands, World.onRedis, hrec]
    exact ⟨t, Function.update_self .., .refl t⟩
  · exact hs
  · intro j x hj
    rw [World.onRedis, hrec]
    by_cases hji : j = i
    · subst hji
      rw [Function.update_self] at hj
      obtain rfl := hd x (task_of_registering hj)
      refine ⟨⟨x, Function.update_self .., hlive⟩, fun v hv => hother (h.queued v hv),
        fun k v hk hv => ?_⟩
      rw [Function.update_of_ne hk] at hv
      exact hother (h.inHand k v hv)
    · rw [Function.update_of_ne hji] at hj
      have hxt := hother (h.inHand j x (task_of_registering hj))
      obtain ⟨h₁, h₂, h₃⟩ := h.fresh j x hj
      refine ⟨?_, h₂, fun k v hk hv => ?_⟩
      · rw [Function.update_of_ne hxt]
        exact h₁
      · by_cases hki : k = i
        · rw [hki, Function.update_self] at hv
          rw [hd v hv]
          exact hxt.symm
        · rw [Function.update_of_ne hki] at hv
          exact h₃ k v hk hv
  · intro id x hx hr
    rw [World.onRedis, hrec] at hx
    rcases update_eq_iff.1 hx with ⟨_, he⟩ | ⟨_, hx⟩
    · cases he
      exact (hreg hr).2
    · exact h.separable id x hx hr
  · intro k id hk
    obtain ⟨x, hx, hxk, hr, hl⟩ := h.names k id hk
    rw [World.onRedis, hrec]
    refine ⟨x, by rw [Function.update_of_ne (hne hx), hx], hxk, hr, hl.imp_right ?_⟩
    rintro ⟨j, y, hj, hy⟩
    have hji : j ≠ i := by
      rintro rfl
      exact hidle (.inl hj)
    exact ⟨j, y, by rw [Function.update_of_ne hji, hj], hy⟩
  · intro id x hx hso
    rw [World.onRedis, hrec] at hx
    rcases update_eq_iff.1 hx with ⟨rfl, he⟩ | ⟨_, hx⟩
    · cases he
      exact .inr ⟨i, t, by rw [Function.update_self, (hreg hso.2).1], rfl⟩
    · refine (h.present id x hx hso).imp_right ?_
      rintro ⟨j, y, hj, hy⟩
      have hji : j ≠ i := by
        rintro rfl
        exact hidle (.inr hj)
      exact ⟨j, y, by rw [Function.update_of_ne hji, hj], hy⟩
  · exact hf₁
  · exact hf₂

/-- A command that leaves tasks and digests as they are, and is not one of those that a `save` or
an `update` ends with. -/
theorem aside (h : Indexed S tr w ds) (hw : SameTasks w w')
    (hg : w'.redis.digests = w.redis.digests)
    (hs : Stages w'.stage (Progress.hold ∘ Function.update ds i d))
    (ht : ∀ v, d.task = some v → ∃ u, (ds i).task = some u ∧ v.SameTask u)
    (hreg : ∀ t, d.registering = some t → (ds i).registering = some t)
    (hset : ∀ t, (ds i).registering = some t → d.registering = some t ∨
      w'.redis.digests (t.digest S) ≠ none)
    (hclr : ∀ t, (ds i).clearing = some t → d.clearing = some t ∨
      w'.redis.digests (t.digest S) ≠ some t.taskId)
    (hf₁ : (Orchestrator.registers : Monitor (Cmd Text Event) Cmd.Answer _).Follows
      Progress.registering (l :: tr) (Function.update ds i d))
    (hf₂ : (Orchestrator.clears : Monitor (Cmd Text Event) Cmd.Answer _).Follows
      Progress.clearing (l :: tr) (Function.update ds i d)) :
    Indexed S (l :: tr) w' (Function.update ds i d) := by
  refine h.shift hw.record hs (fun v hv => ?_) (fun v hv => ?_) hreg hset hclr
    (fun k id hk => ?_) (fun id t _ _ hd => ?_) hf₁ hf₂
  · rw [hw.queued] at hv
    exact .inl hv
  · obtain ⟨u, hu, hvu⟩ := ht v hv
    obtain ⟨x, hx, hxu⟩ := h.inHand i u hu
    exact ⟨⟨x, by rw [hvu.1, hx], hxu.trans hvu.symm⟩, h.apart_inHand hu hvu.1⟩
  · rw [hg] at hk
    exact .inl hk
  · rw [← hg] at hd
    exact .inl hd

theorem move {c : Cmd Text Event} {r : c.Answer} (h : Indexed S tr w ds)
    (ha : (orchestrator Text S sp ex).Answer i c r w w' l) (hok : keepsDigests S tr w l w')
    (hm : Move S (ds i) c r d) : Indexed S (l :: tr) w' (Function.update ds i d) := by
  have hs := h.stages.move ha hm
  have hf₁ : (Orchestrator.registers : Monitor (Cmd Text Event) Cmd.Answer _).Follows
      Progress.registering (l :: tr) (Function.update ds i d) := by
    obtain ⟨hcmd, habort⟩ := registers_move hm
    apply h.registers.answer ha (hcmd w w')
    rintro ⟨e, he, _⟩
    exact habort ⟨e, he⟩
  have hf₂ : (Orchestrator.clears : Monitor (Cmd Text Event) Cmd.Answer _).Follows
      Progress.clearing (l :: tr) (Function.update ds i d) := by
    obtain ⟨hcmd, habort⟩ := clears_move hm
    apply h.clears.answer ha (hcmd w w')
    rintro ⟨e, he, _⟩
    exact habort ⟨e, he⟩
  have hquiet (hc : c.quiet = true) (hg : w'.redis.digests = w.redis.digests)
      (hd : ds i ≠ .scanning) (hreg : ∀ t, d.registering = some t → (ds i).registering = some t)
      (hset : ∀ t, (ds i).registering = some t → d.registering = some t ∨
        w'.redis.digests (t.digest S) ≠ none)
      (hclr : ∀ t, (ds i).clearing = some t → d.clearing = some t ∨
        w'.redis.digests (t.digest S) ≠ some t.taskId) :
      Indexed S (l :: tr) w' (Function.update ds i d) :=
    h.aside (answer_sameTasks hc ha) hg hs
      (fun v hv => ⟨v, hm.task_quiet hc hd hv, .refl v⟩) hreg hset hclr hf₁ hf₂
  have hset {t u : Task} {id : String} {x : Text} (hc : c = .set id x) (ht : (ds i).task = some t)
      (hu : u.SameTask t) (hid : id = u.taskId) (hx : x = modelDumpJson u)
      (hd : ∀ v, d.task = some v → v = u) : Indexed S (l :: tr) w' (Function.update ds i d) := by
    subst hid hx
    obtain ⟨hr₁, hr₂, hc₁⟩ := hm.writes_beside hc
    subst hc
    rcases set_effect ha with rfl | ⟨_, hw⟩
    · have hrec : (w.redis.set u.taskId (modelDumpJson u)).record u.taskId = some u := by
        rw [Redis.record_set_dump, Function.update_self]
      refine h.write ht hu hs (fun v hv hterm => ?_) hd hr₁ hr₂ hc₁ (fun hterm hne => ?_) hf₁ hf₂
      · exact hok.1 _ (Redis.mem_keys_of_record hv) v hv hterm u hrec
      · cases ha with
        | cmd hx =>
          left
          rw [← (clears_move hm).1 _ _ hx]
          simp only [Orchestrator.clears, parse_dump, Option.filter_some, hterm, hne, ne_eq,
            not_false_eq_true, and_self, decide_true, ↓reduceIte]
        | abort hx => exact .inr (hok.2.2.2.2.1 _ rfl u hrec hterm)
    · exact h.aside hw.sameTasks (by rw [hw.redis]) hs (fun v hv => ⟨t, ht, hd v hv ▸ hu⟩)
        (fun v hv => by cases hr₂.symm.trans hv) (fun v hv => by cases hr₁.symm.trans hv)
        (fun v hv => by cases hc₁.symm.trans hv) hf₁ hf₂
  have hpush {t : Task} {x : Text} (hc : c = .lpush x) (ht : (ds i).task = some t)
      (hx : x = modelDumpJson t) (hd : d.task = none) (hr₁ : (ds i).registering = none)
      (hc₁ : (ds i).clearing = none) : Indexed S (l :: tr) w' (Function.update ds i d) := by
    subst hc hx
    have hr₂ (v : Task) (hv : d.registering = some v) : False := by
      cases hd.symm.trans (task_of_registering hv)
    rcases lpush_effect ha with rfl | ⟨_, hw⟩
    · refine h.shift rfl hs (fun v hv => ?_) (fun v hv => ?_) (fun v hv => (hr₂ v hv).elim)
        (fun v hv => ?_) (fun v hv => ?_) (fun _ _ hk => .inl hk) (fun _ _ _ _ hk => .inl hk)
        hf₁ hf₂
      · rw [World.onRedis, Redis.queued_lpush_dump] at hv
        rcases List.mem_cons.1 hv with rfl | hv
        · exact .inr ⟨h.inHand i v ht, h.apart_inHand ht rfl,
            Option.eq_none_iff_forall_ne_some.2 fun u hu => hr₂ u hu⟩
        · exact .inl hv
      · cases hd.symm.trans hv
      · cases hr₁.symm.trans hv
      · cases hc₁.symm.trans hv
    · exact h.aside hw.sameTasks (by rw [hw.redis]) hs (fun v hv => by cases hd.symm.trans hv)
        (fun v hv => (hr₂ v hv).elim) (fun v hv => by cases hr₁.symm.trans hv)
        (fun v hv => by cases hc₁.symm.trans hv) hf₁ hf₂
  have hpop (hc : c = .brpop) (hi : ds i = .idle)
      (hd : ∀ v, d.task = some v → v ∈ w.redis.queued) (hr₂ : d.registering = none) :
      Indexed S (l :: tr) w' (Function.update ds i d) := by
    subst hc
    have hi₁ (v : Task) (hv : (ds i).registering = some v ∨ (ds i).clearing = some v) : False := by
      rw [hi] at hv
      rcases hv with hv | hv <;> cases hv
    have hv (v : Task) (hv : d.task = some v) : Stands w v ∧ Apart ds i v :=
      ⟨h.queued v (hd v hv), h.apart_queued (hd v hv)⟩
    rcases brpop_effect ha with ⟨y, hy, rfl, _⟩ | ⟨_, hw⟩
    · refine h.shift rfl hs (fun v hv => .inl ?_) hv (fun v hv => by cases hr₂.symm.trans hv)
        (fun v hv => (hi₁ v (.inl hv)).elim) (fun v hv => (hi₁ v (.inr hv)).elim)
        (fun _ _ hk => .inl hk) (fun _ _ _ _ hk => .inl hk) hf₁ hf₂
      rw [Redis.queued_getLast hy]
      exact List.mem_append_left _ hv
    · refine h.shift (by rw [hw.redis]) hs (fun v hv => .inl ?_) hv
        (fun v hv => by cases hr₂.symm.trans hv) (fun v hv => (hi₁ v (.inl hv)).elim)
        (fun v hv => (hi₁ v (.inr hv)).elim) (fun k id hk => .inl ?_)
        (fun id t _ _ hk => .inl ?_) hf₁ hf₂
      · rwa [hw.redis] at hv
      · rwa [hw.redis] at hk
      · rwa [hw.redis]
  have hcut (ht : ∃ e, r = .error e) (hl : ∀ e j, l = .abort j c (.error e) → NoEffect S tr w' j)
      (hn : ∀ w w', ¬∃ e, exec c (.error e) w w') : NoEffect S tr w' i := by
    obtain ⟨e, rfl⟩ := ht
    cases ha with
    | cmd hx => exact absurd ⟨e, hx⟩ (hn w w')
    | abort _ => exact hl e i rfl
  generalize hdi : ds i = d₀ at hm
  have hquiet₀ (hc : c.quiet = true) (hf : c.indexFree = true) (hr₁ : d₀.registering = none)
      (hc₁ : d₀.clearing = none) (hr₂ : d.registering = none) (hsc : d₀ ≠ .scanning) :
      Indexed S (l :: tr) w' (Function.update ds i d) := by
    refine hquiet hc (answer_sameIndex hf ha).digests (hdi ▸ hsc)
      (fun v hv => by cases hr₂.symm.trans hv) (fun v hv => ?_) (fun v hv => ?_)
    · rw [hdi] at hv
      cases hr₁.symm.trans hv
    · rw [hdi] at hv
      cases hc₁.symm.trans hv
  cases hm with
  | background hc =>
    have hg : w'.redis.digests = w.redis.digests := by
      cases c with
      | sadd _ _ | setDigest _ _ | delDigest _ => cases hc
      | _ => exact (answer_sameIndex rfl ha).digests
    rw [← hdi] at hs hf₁ hf₂ ⊢
    exact h.aside (answer_sameTasks (quiet_of_background hc) ha) hg hs
      (fun v hv => ⟨v, hv, .refl v⟩) (fun _ hv => hv) (fun _ hv => .inl hv) (fun _ hv => .inl hv)
      hf₁ hf₂
  | acquire => exact hquiet₀ rfl rfl rfl rfl (granted_eq rfl rfl rfl) (fun he => by cases he)
  | start | hangUp =>
    exact hquiet₀ rfl rfl rfl rfl (settle_eq rfl fun _ => rfl) (fun he => by cases he)
  | launch | stolen | leave | close | closeHalted =>
    exact hquiet₀ rfl rfl rfl rfl rfl (fun he => by cases he)
  | wait =>
    exact hquiet₀ rfl rfl rfl rfl (settle_eq rfl fun _ => cutShort_eq fun _ => rfl)
      (fun he => by cases he)
  | read hx ht =>
    rename_i x t id
    obtain ⟨hr, rfl⟩ : w.redis.tasks.lookup id = some x ∧ w' = w := by
      rcases answer_effect ha with ⟨a, ⟨he, hw⟩, hr⟩ | ⟨⟨e, he⟩, _⟩
      · cases he
        exact ⟨(hr _ rfl).symm, hw⟩
      · cases he
    have hrec : w'.redis.record id = some t := by
      rw [Redis.record, hr]
      exact hx
    obtain rfl := h.keyed id t hrec
    have hgone (j : Nat) (hj : j ≠ i) : (ds j).registering = none := by
      have halone := h.stages.alone i j (by rw [Function.comp_apply, hdi]; rfl) hj
      cases hdj : ds j with
      | gone => rfl
      | _ =>
        rw [Function.comp_apply, hdj] at halone
        cases halone
    refine h.shift rfl hs (fun _ hv => .inl hv) (fun v hv => ?_) (fun _ hv => by cases hv)
      (fun _ hv => by rw [hdi] at hv; cases hv) (fun _ hv => by rw [hdi] at hv; cases hv)
      (fun _ _ hk => .inl hk) (fun _ _ _ _ hk => .inl hk) hf₁ hf₂
    obtain rfl := Option.some.inj hv
    refine ⟨⟨t, hrec, .refl t⟩, fun j y hj hy => ?_⟩
    cases (hgone j hj).symm.trans hy
  | mark _ hu _ | run hu _ | halt hu _ =>
    exact hset rfl (by rw [hdi]; rfl) hu.1 rfl rfl fun _ => task_settle rfl fun _ => .inl rfl
  | retry _ hu _ _ =>
    exact hset rfl (by rw [hdi]; rfl) hu rfl rfl fun _ => task_settle rfl fun _ => .inl rfl
  | reject hu _ | fail _ hu _ | abandon _ hu _ =>
    exact hset rfl (by rw [hdi]; rfl) hu.1 rfl rfl
      fun _ => task_settle (finished_eq rfl rfl) fun _ => .inl rfl
  | succeed hu _ =>
    exact hset rfl (by rw [hdi]; rfl) hu.1 rfl rfl
      fun _ => task_settle (finished_eq rfl rfl) fun _ => .inr rfl
  | requeue _ | requeueMarked | queue =>
    exact hpush rfl (by rw [hdi]; rfl) rfl rfl (by rw [hdi]; rfl) (by rw [hdi]; rfl)
  | pop hx =>
    rename_i x t
    refine hpop rfl hdi (fun v hv => ?_) rfl
    obtain rfl := Option.some.inj hv
    rcases brpop_effect ha with ⟨y, hy, _, hr⟩ | ⟨hr, _⟩
    · cases hr _ rfl
      rw [Redis.queued_getLast hy, hx]
      exact List.mem_append_right _ (List.mem_singleton_self t)
    · exact absurd rfl (hr x)
  | popNothing _ => exact hpop rfl hdi (fun _ hv => by cases hv) rfl
  | store hst hn =>
    rename_i t r
    rcases setNx_effect ha with ⟨hid, rfl, hr⟩ | ⟨hr, hw⟩
    · refine h.create hid hst hs (fun v hv => ?_) (by rw [hdi]; rfl) (fun hne => ?_) hf₁ hf₂
      · rcases granted_some rfl hv with hv | hv
        · exact (Option.some.inj hv).symm
        · cases hv
      · rcases r with e | _ | _
        · cases ha with
          | cmd hx =>
            exact absurd (exec_error (c := .setNx t.taskId (modelDumpJson t)) hx) not_false
          | abort _ =>
            refine absurd (hok.2.2.2.1 _ rfl t (parse_dump t) hne ?_) hid
            exact AList.mem_insert _ |>.2 (.inl rfl)
        · exact absurd rfl hr
        · refine ⟨if_neg hne, ?_⟩
          cases ha with
          | cmd _ => exact hok.2.2.1 _ rfl t (parse_dump t) hne
          | abort hx =>
            obtain ⟨e, he, _⟩ := hx
            cases he
    · have hd : granted r (.stored t) .idle = .idle := by
        rcases r with e | _ | _
        · rfl
        · rfl
        · exact absurd rfl hr
      rw [hd] at hs hf₁ hf₂ ⊢
      exact h.aside hw.sameTasks (by rw [hw.redis]) hs (fun _ hv => by cases hv)
        (fun _ hv => by cases hv) (fun _ hv => by rw [hdi] at hv; cases hv)
        (fun _ hv => by rw [hdi] at hv; cases hv) hf₁ hf₂
  | index =>
    rename_i t r
    have hg : w'.redis.digests = w.redis.digests := by
      rcases sadd_effect ha with rfl | ⟨_, hw⟩
      · rfl
      · rw [hw.redis]
    refine hquiet rfl hg (hdi ▸ fun he => by cases he) (fun v hv => ?_) (fun v hv => ?_)
      (fun v hv => by rw [hdi] at hv; cases hv)
    · rcases r with e | _
      · cases hv
      · rw [settle, entered] at hv
        split at hv
        · cases hv
        · rename_i hr
          obtain rfl := Option.some.inj hv
          rw [hdi]
          exact if_neg hr
    · rcases r with e | _
      · right
        have hst := hcut ⟨e, rfl⟩ (fun e j hl => by subst hl; exact hok.2.2.2.2.2)
          fun _ _ hx => by obtain ⟨_, hx⟩ := hx; cases hx.1
        exact hst.1 v ((h.registers i).trans hv)
      · left
        rw [hdi, registering] at hv
        rw [settle, entered]
        split at hv
        · cases hv
        · rename_i hr
          rw [if_neg hr]
          exact hv
  | register hr =>
    rename_i t r
    obtain ⟨⟨u, hu, hlive⟩, _⟩ := h.fresh i t (by rw [hdi]; rfl)
    have hut : u.SameTask t := h.same_record (by rw [hdi]; rfl) rfl hu
    have hnone (v : Task) (hv : (settle r (.queueing t) fun _ => .idle).registering = some v) :
        False := by
      rcases settle_some hv with hv | ⟨_, hv⟩ <;> cases hv
    have hclr (v : Task) (hv : (ds i).clearing = some v) : False := by
      rw [hdi] at hv
      cases hv
    have htask (v : Task) (hv : (settle r (.queueing t) fun _ => .idle).task = some v) :
        Stands w v ∧ Apart ds i v := by
      obtain rfl := task_settle (u := t) rfl (fun _ => .inl rfl) hv
      exact ⟨⟨u, hu, hut⟩, h.apart_inHand (by rw [hdi]; rfl) rfl⟩
    rcases answer_effect ha with ⟨_, ⟨_, rfl⟩, _⟩ | ⟨he, hw⟩
    · refine h.shift rfl hs (fun _ hv => .inl hv) htask (fun v hv => (hnone v hv).elim)
        (fun v hv => .inr ?_) (fun v hv => (hclr v hv).elim) (fun k id hk => ?_)
        (fun id v _ _ hv => .inl ?_) hf₁ hf₂
      · rw [hdi] at hv
        obtain rfl := Option.some.inj hv
        intro hn
        rcases update_eq_iff.1 hn with ⟨_, he⟩ | ⟨hk, _⟩
        · cases he
        · exact hk rfl
      · rcases update_eq_iff.1 hk with ⟨rfl, he⟩ | ⟨_, hk⟩
        · obtain rfl := Option.some.inj he
          exact .inr ⟨u, hu, hut.digest, hlive, hut.2.2 ▸ hr⟩
        · exact .inl hk
      · intro hn
        rcases update_eq_iff.1 hn with ⟨_, he⟩ | ⟨_, hn⟩
        · cases he
        · exact hv hn
    · refine h.aside hw.sameTasks (by rw [hw.redis]) hs (fun v hv => ?_)
        (fun v hv => (hnone v hv).elim) (fun v hv => .inr ?_) (fun v hv => (hclr v hv).elim) hf₁ hf₂
      · obtain rfl := task_settle (u := t) rfl (fun _ => .inl rfl) hv
        exact ⟨v, by rw [hdi]; rfl, .refl v⟩
      · have hst := hcut he (fun e j hl => by subst hl; exact hok.2.2.2.2.2)
          fun _ _ hx => by obtain ⟨_, hx⟩ := hx; cases hx.1
        exact hst.1 v ((h.registers i).trans hv)
  | clear =>
    rename_i t r
    have hnone (v : Task) (hv : (settle r (.closing t) (unclear t)).registering = some v) :
        False := by
      have hn : (settle r (.closing t) (unclear t)).registering = none :=
        settle_eq rfl fun _ => unclear_eq (fun _ => rfl) rfl
      cases hn.symm.trans hv
    have hreg (v : Task) (hv : (ds i).registering = some v) : False := by
      rw [hdi] at hv
      cases hv
    have htask (v : Task) (hv : (settle r (.closing t) (unclear t)).task = some v) :
        (ds i).task = some v := by
      rw [hdi]
      rcases settle_some hv with hv | ⟨e, hv⟩
      · exact hv
      · exact congrArg some (task_unclear hv)
    rcases answer_effect ha with ⟨_, ⟨_, rfl⟩, _⟩ | ⟨he, hw⟩
    · have hdes : Deserted S tr w (t.digest S) := by
        apply hok.2.1 (t.digest S)
        · cases ha <;> rfl
        · exact Function.update_self ..
      refine h.shift rfl hs (fun _ hv => .inl hv)
        (fun v hv => ⟨h.inHand i v (htask v hv), h.apart_inHand (htask v hv) rfl⟩)
        (fun v hv => (hnone v hv).elim) (fun v hv => (hreg v hv).elim) (fun v hv => .inr ?_)
        (fun k id hk => ?_) (fun id v hv hso hd => ?_) hf₁ hf₂
      · rw [hdi] at hv
        obtain rfl := Option.some.inj hv
        intro hn
        rcases update_eq_iff.1 hn with ⟨_, he⟩ | ⟨hk, _⟩
        · cases he
        · exact hk rfl
      · rcases update_eq_iff.1 hk with ⟨_, he⟩ | ⟨_, hk⟩
        · cases he
        · exact .inl hk
      · by_cases hk : v.digest S = t.digest S
        · obtain ⟨j, _, hj⟩ := hdes id (Redis.mem_keys_of_record hv) v hv hso hk
          obtain ⟨y, hy, hid⟩ := Option.map_eq_some_iff.1 hj
          rw [h.registers j] at hy
          exact .inr ⟨j, y, hy, hid⟩
        · exact .inl ((Function.update_of_ne hk ..).trans_ne hd)
    · refine h.aside hw.sameTasks (by rw [hw.redis]) hs (fun v hv => ⟨v, htask v hv, .refl v⟩)
        (fun v hv => (hnone v hv).elim) (fun v hv => (hreg v hv).elim) (fun v hv => .inr ?_) hf₁ hf₂
      have hst := hcut he (fun e j hl => by subst hl; exact hok.2.2.2.2.2)
        fun _ _ hx => by obtain ⟨_, hx⟩ := hx; cases hx.1
      exact hst.2 v ((h.clears i).trans hv)

/-- A process that has no task in hand comes or goes. -/
theorem change (h : Indexed S tr w ds) (hw : w'.redis = w.redis)
    (hs : Stages w'.stage (Progress.hold ∘ Function.update ds i d)) (hi : (ds i).task = none)
    (hd : d.task = none)
    (hf₁ : (Orchestrator.registers : Monitor (Cmd Text Event) Cmd.Answer _).Follows
      Progress.registering (l :: tr) (Function.update ds i d))
    (hf₂ : (Orchestrator.clears : Monitor (Cmd Text Event) Cmd.Answer _).Follows
      Progress.clearing (l :: tr) (Function.update ds i d)) :
    Indexed S (l :: tr) w' (Function.update ds i d) := by
  refine h.shift (by rw [hw]) hs (fun v hv => .inl (hw ▸ hv)) (fun v hv => ?_) (fun v hv => ?_)
    (fun v hv => ?_) (fun v hv => ?_) (fun k id hk => .inl (hw ▸ hk))
    (fun id v _ _ hk => .inl (hw ▸ hk)) hf₁ hf₂
  · cases hd.symm.trans hv
  · cases hd.symm.trans (task_of_registering hv)
  · cases hi.symm.trans (task_of_registering hv)
  · cases hi.symm.trans (task_of_clearing hv)

/-- After a stop, the digests are as they were. -/
theorem halt (h : Indexed S tr w ds) (hw : w'.redis = w.redis) (hok : ∀ i, NoEffect S tr w' i) :
    Indexed S (.halt :: tr) w' fun _ => .gone where
  keyed := hw ▸ h.keyed
  queued t ht := by
    rw [Stands, hw]
    exact h.queued t (hw ▸ ht)
  inHand _ _ ht := by cases ht
  stages := .idle _
  fresh _ _ ht := by cases ht
  separable := hw ▸ h.separable
  names k id hk := by
    obtain ⟨t, ht, hd, hr, hlive | ⟨i, u, hu, hid⟩⟩ := h.names k id (hw ▸ hk)
    · exact ⟨t, hw ▸ ht, hd, hr, .inl hlive⟩
    · have hs := (hok i).2 u ((h.clears i).trans hu)
      rw [← (h.same_record (task_of_clearing hu) hid ht).digest, hd, hid] at hs
      exact absurd hk hs
  present id t ht hso := by
    rw [hw] at ht
    rcases h.present id t ht hso with hd | ⟨i, u, hu, hid⟩
    · exact .inl (hw ▸ hd)
    · have hs := (hok i).1 u ((h.registers i).trans hu)
      rw [← (h.same_record (task_of_registering hu) hid ht).digest] at hs
      exact .inl hs
  registers := fun _ => rfl
  clears := fun _ => rfl

end Indexed

def indexing (Text : Type) [TaskJson Text] (S : Setup Event) :
    Assertion (orchestrator Text S spawn exit) Progress where
  ok := keepsDigests S
  inv := Indexed S
  guar _ _ _ := True

theorem registering_entry (q : Kind) : q.entry.registering = none := by cases q <;> rfl

theorem clearing_entry (q : Kind) : q.entry.clearing = none := by cases q <;> rfl

theorem indexing_tracked {S : Setup Event} : Tracked (indexing Text S) World.init where
  start := by
    constructor
    · intro _ _ h
      cases h
    · intro _ h
      cases h
    · intro _ _ h
      cases h
    · exact .idle _
    · intro _ _ h
      cases h
    · intro _ _ h
      cases h
    · intro _ _ h
      cases h
    · intro _ _ h
      cases h
    · exact fun _ => rfl
    · exact fun _ => rfl
  move tr w ds i c r w' l d hi ha hok hm := ⟨trivial, hi.move ha hok hm⟩
  spawn tr w ds i q w' hi hd hs _ :=
    ⟨trivial, hi.change (redis_spawn hs) (hi.stages.spawn hs) (by rw [hd]; rfl) (task_entry q)
      (hi.registers.spawn i q (registering_entry q)) (hi.clears.spawn i q (clearing_entry q))⟩
  exit tr w ds i q b w' o hi hd he _ := by
    have ho : (o.elim Progress.gone Kind.entry).task = none ∧
        (o.elim Progress.gone Kind.entry).registering = none ∧
        (o.elim Progress.gone Kind.entry).clearing = none := by
      cases o with
      | none => exact ⟨rfl, rfl, rfl⟩
      | some q' => exact ⟨task_entry q', registering_entry q', clearing_entry q'⟩
    exact ⟨trivial, hi.change (redis_exit he) (hi.stages.exit hd he)
      (by rw [hd]; exact task_entry q)
      ho.1 (hi.registers.exit i q b ho.2.1) (hi.clears.exit i q b ho.2.2)⟩
  env tr w ds e w' hi ht _ := by
    have hw := tick_quiet ht
    have hself : Function.update ds 0 (ds 0) = ds := Function.update_eq_self ..
    have hmove := hi.aside (l := .env e) (i := 0) (d := ds 0) hw (tick_sameIndex ht).digests
      (by rw [hself, hw.stage]; exact hi.stages) (fun v hv => ⟨v, hv, .refl v⟩) (fun _ hv => hv)
      (fun _ hv => .inl hv) (fun _ hv => .inl hv) (by rw [hself]; exact hi.registers)
      (by rw [hself]; exact hi.clears)
    rw [hself] at hmove
    exact ⟨trivial, hmove⟩
  halt tr w ds w' hi hh hok := by
    cases hh
    exact ⟨trivial, hi.halt rfl hok.2.2.2.2.2⟩

theorem digest_law {S : Setup Event} (hS : Function.Injective S.sha256)
    {tr : List (SysLabel Text Event)} {s : SysConfig Text Event}
    (hr : Run (system Text S) (keepsDigests S) (.idle .init) tr s)
    (hq : ∀ i, registers.read i tr = none ∧ clears.read i tr = none) : DigestLaw S s.world := by
  have hA : Tracked (indexing Text S) World.init := indexing_tracked
  obtain ⟨ds, hi⟩ := hA.sound.inv hr
  have hreg (i : Nat) : (ds i).registering = none := (hi.registers i).symm.trans (hq i).1
  have hclr (i : Nat) : (ds i).clearing = none := (hi.clears i).symm.trans (hq i).2
  have hnames (p r id : String) (h : s.world.redis.digests (digestKey S p r) = some id) : ∃ t,
      s.world.redis.record id = some t ∧ t.projectName = p ∧ t.requirement = r ∧
        t.isTerminal = false := by
    obtain ⟨t, ht, hd, hne, hlive | ⟨i, u, hu, _⟩⟩ := hi.names _ id h
    · obtain ⟨hp, hr⟩ := (hi.separable id t ht hne).pair hS hd
      exact ⟨t, ht, hp, hr, hlive⟩
    · cases (hclr i).symm.trans hu
  constructor
  · exact hnames
  · intro p r t w' h
    obtain ⟨id, hid, ht⟩ := findByDigest_eval h
    obtain ⟨u, hu, _, _, hlive⟩ := hnames p r id hid
    cases ht.symm.trans hu
    exact hlive
  · intro id t ht hlive hne
    rcases hi.present id t ht ⟨hlive, hne⟩ with hd | ⟨i, u, hu, _⟩
    · obtain ⟨id', hid'⟩ := Option.ne_none_iff_exists'.1 hd
      obtain ⟨u, hu, _, _, hl⟩ := hnames _ _ id' hid'
      exact ⟨id', u, hid', hu, hl⟩
    · cases (hreg i).symm.trans hu

end

instance [TaskJson Text] (w w' : World Text Event) : Decidable (Final w w') :=
  inferInstanceAs (Decidable (∀ id ∈ w.redis.tasks.keys, ∀ t ∈ w.redis.record id, _ → _))

instance [TaskJson Text] (S : Setup Event) (tr : List (SysLabel Text Event)) (w : World Text Event)
    (h : String) : Decidable (Deserted S tr w h) :=
  inferInstanceAs (Decidable (∀ id ∈ w.redis.tasks.keys, ∀ t ∈ w.redis.record id, _ → _ → _))

instance [TaskJson Text] (S : Setup Event) (tr : List (SysLabel Text Event)) (w : World Text Event)
    (i : Nat) : Decidable (NoEffect S tr w i) := inferInstanceAs (Decidable (_ ∧ _))

theorem forall_noEffect_iff [TaskJson Text] {S : Setup Event} {tr : List (SysLabel Text Event)}
    {w : World Text Event} :
    (∀ i, NoEffect S tr w i) ↔ ∀ i ∈ Monitor.actors tr, NoEffect S tr w i := by
  refine ⟨fun h i _ => h i, fun h i => ?_⟩
  by_cases hi : i ∈ Monitor.actors tr
  · exact h i hi
  · rw [NoEffect, registers.read_of_not_mem hi, clears.read_of_not_mem hi]
    constructor
    · intro t ht
      cases ht
    · intro t ht
      cases ht

instance [TaskJson Text] (S : Setup Event) (tr : List (SysLabel Text Event))
    (w : World Text Event) (l : SysLabel Text Event) (w' : World Text Event) :
    Decidable (keepsDigests S tr w l w') :=
  have : Decidable (match l with
      | .abort i _ _ => NoEffect S tr w' i
      | .halt => ∀ i, NoEffect S tr w' i
      | _ => True) :=
    match l with
    | .abort i _ _ => inferInstanceAs (Decidable (NoEffect S tr w' i))
    | .halt => decidable_of_iff _ forall_noEffect_iff.symm
    | .cmd .. | .spawn .. | .exit .. | .env _ => isTrue trivial
  show Decidable (_ ∧ _ ∧ _ ∧ _ ∧ _ ∧ _) from inferInstance

theorem quiet_iff [TaskJson Text] (tr : List (SysLabel Text Event)) :
    (∀ i, registers.read i tr = none ∧ clears.read i tr = none) ↔
      ∀ i ∈ Monitor.actors tr, registers.read i tr = none ∧ clears.read i tr = none := by
  rw [forall_and, registers.forall_read_iff (P := (· = none)) rfl,
    clears.forall_read_iff (P := (· = none)) rfl, ← forall₂_and]

/-- A task that succeeds, and another one with the same requirement after it. -/
def runAgain : Schedule :=
  start ++ create 1 ++ [.spawn 2 .worker] ++ turnToStream 2 0 ++ turnFromStream 2 ++
    [.spawn 3 (.request demoRequest)] ++ go 3 10 ++ [.exit 3]

/-- A crash after the `SET` of a success and before the `DEL` of its digest, and the restart. -/
def cutUpdate : Schedule :=
  start ++ create 1 ++ [.spawn 2 .worker] ++ turnToStream 2 0 ++ go 2 3 ++
    [.halt, .spawn 0 .recover] ++ go 0 2 ++ [.exit 0]

theorem digest_law_again : ∃ tr s, DemoRun (keepsDigests demo) tr s ∧
    s.world.redis.digests (digestKey demo "p" "r") = some "uuu" ∧ DigestLaw demo s.world := by
  obtain ⟨tr, s, hr, hs⟩ := demoDriver.drive_observe (keepsDigests demo) (.idle .init) runAgain
    (fun o => if ∀ i ∈ Monitor.actors o.1,
        registers.read i o.1 = none ∧ clears.read i o.1 = none then
      some (o.2.world.redis.digests (digestKey demo "p" "r")) else none)
    (show _ = some (some "uuu") by decide)
  split at hs
  · rename_i hq
    exact ⟨tr, s, hr, Option.some.inj hs, digest_law Function.injective_id hr ((quiet_iff tr).2 hq)⟩
  · cases hs

theorem not_digest_law : ¬∀ tr s, DemoRun anyway tr s →
    (∀ i, registers.read i tr = none ∧ clears.read i tr = none) → DigestLaw demo s.world := by
  intro h
  obtain ⟨tr, s, hr, hs⟩ := demoDriver.drive_observe anyway (.idle .init) cutUpdate
    (fun o => if ∀ i ∈ Monitor.actors o.1,
        registers.read i o.1 = none ∧ clears.read i o.1 = none then
      some (o.2.world.redis.digests (digestKey demo "p" "r"),
        (o.2.world.redis.record "u").map Task.status) else none)
    (show _ = some (some "u", some TaskStatus.success) by decide)
  split at hs
  · rename_i hq
    obtain ⟨hd, ht⟩ := Prod.mk.inj (Option.some.inj hs)
    obtain ⟨t, hu, _, _, hlive⟩ := (h tr s hr ((quiet_iff tr).2 hq)).names "p" "r" "u" hd
    rw [hu] at ht
    rw [Task.isTerminal, Option.some.inj ht] at hlive
    cases hlive
  · cases hs

end Orchestrator
