import Mathlib.Data.Fintype.EquivFin
import Orchestrator.Copies
import Orchestrator.Deeds
import Orchestrator.Drawn
import Orchestrator.Recovery

namespace Orchestrator
open Concurrency Async Progress
set_option autoImplicit true

/-- What is in the indices, and what a `save` has done so far. -/
structure Filed (w : World Text Event) (ds : Nat → Progress) : Prop where
  known : ∀ p id, id ∈ w.redis.projectTasks p → id ∈ w.redis.tasks
  registered : ∀ h id, w.redis.digests h = some id → ∃ p, id ∈ w.redis.projectTasks p
  stored : ∀ i t, ds i = .stored t → t.taskId ∈ w.redis.tasks ∧
    ∀ p, t.taskId ∉ w.redis.projectTasks p
  unique : ∀ i j t u, ds i = .stored t → ds j = .stored u → t.taskId = u.taskId → i = j
  indexed : ∀ i t, ds i = .indexed t → t.taskId ∈ w.redis.projectTasks t.projectName

namespace Filed
variable {w w' : World Text Event} {ds : Nat → Progress} {i : Nat} {d : Progress}

/-- A step that files nothing. -/
theorem same (h : Filed w ds) (ht : ∀ id ∈ w.redis.tasks, id ∈ w'.redis.tasks)
    (hp : w'.redis.projectTasks = w.redis.projectTasks)
    (hg : ∀ h id, w'.redis.digests h = some id → w.redis.digests h = some id)
    (hd : d = ds i ∨ d.filing = none) : Filed w' (Function.update ds i d) := by
  have hold {j : Nat} {t : Task} (hj : (Function.update ds i d j).filing = some t) :
      Function.update ds i d j = ds j := by
    by_cases hji : j = i
    · subst hji
      rw [Function.update_self] at hj ⊢
      exact hd.resolve_right fun hn => by cases hn.symm.trans hj
    · rw [Function.update_of_ne hji]
  have hstored {j : Nat} {t : Task} (hj : Function.update ds i d j = .stored t) :
      ds j = .stored t := (hold (congrArg filing hj)).symm.trans hj
  constructor
  · intro p id hid
    rw [hp] at hid
    exact ht id (h.known p id hid)
  · intro x id hx
    rw [hp]
    exact h.registered x id (hg x id hx)
  · intro j t hj
    obtain ⟨hm, hn⟩ := h.stored j t (hstored hj)
    rw [hp]
    exact ⟨ht _ hm, hn⟩
  · exact fun j k t u hj hk => h.unique j k t u (hstored hj) (hstored hk)
  · intro j t hj
    rw [hp]
    exact h.indexed j t ((hold (congrArg filing hj)).symm.trans hj)

/-- A new record is in no index. -/
theorem store (h : Filed w ds) {t : Task} (x : Text) (hid : t.taskId ∉ w.redis.tasks)
    (hd : d = .stored t ∨ d = .idle) :
    Filed (w.onRedis (·.set t.taskId x)) (Function.update ds i d) := by
  have hins (id : String) (hm : id ∈ w.redis.tasks) :
      id ∈ (w.redis.set t.taskId x).tasks := AList.mem_insert _ |>.2 (.inr hm)
  have hsame : Filed (w.onRedis (·.set t.taskId x)) (Function.update ds i .idle) :=
    h.same hins rfl (fun _ _ hx => hx) (.inr rfl)
  rcases hd with rfl | rfl
  · have hne {j : Nat} {u : Task} (hj : ds j = .stored u) : u.taskId ≠ t.taskId := fun he =>
      hid (he ▸ (h.stored j u hj).1)
    refine ⟨hsame.known, hsame.registered, fun j u hj => ?_, fun j k u v hj hk he => ?_,
      fun j u hj => ?_⟩
    · rcases update_eq_iff.1 hj with ⟨_, hu⟩ | ⟨hji, hj⟩
      · cases hu
        exact ⟨AList.mem_insert _ |>.2 (.inl rfl), fun p hp => hid (h.known p _ hp)⟩
      · exact hsame.stored j u (by rw [Function.update_of_ne hji, hj])
    · rcases update_eq_iff.1 hj with ⟨hji, hu⟩ | ⟨_, hj⟩ <;>
        rcases update_eq_iff.1 hk with ⟨hki, hv⟩ | ⟨_, hk⟩
      · exact hji.trans hki.symm
      · cases hu
        exact absurd he.symm (hne hk)
      · cases hv
        exact absurd he (hne hj)
      · exact h.unique j k u v hj hk he
    · rcases update_eq_iff.1 hj with ⟨_, hu⟩ | ⟨hji, hj⟩
      · cases hu
      · exact hsame.indexed j u (by rw [Function.update_of_ne hji, hj])
  · exact hsame

/-- The task of a `save` goes into the index of its project. -/
theorem index (h : Filed w ds) {t : Task} (hi : ds i = .stored t)
    (hd : d = .indexed t ∨ d.filing = none) :
    Filed (w.onRedis (·.sadd t.projectName t.taskId)) (Function.update ds i d) := by
  have hne {j : Nat} {u : Task} (hj : Function.update ds i d j = .stored u) :
      j ≠ i ∧ ds j = .stored u := by
    rcases update_eq_iff.1 hj with ⟨_, rfl⟩ | hj
    · rcases hd with hd | hd <;> cases hd
    · exact hj
  constructor
  · intro p id hid
    rcases mem_projectTasks_sadd.1 hid with ⟨_, rfl⟩ | hid
    · exact (h.stored i t hi).1
    · exact h.known p id hid
  · intro x id hx
    obtain ⟨p, hp⟩ := h.registered x id hx
    exact ⟨p, mem_projectTasks_sadd.2 (.inr hp)⟩
  · intro j u hj
    obtain ⟨hji, hj⟩ := hne hj
    obtain ⟨hm, hn⟩ := h.stored j u hj
    refine ⟨hm, fun p hp => ?_⟩
    rcases mem_projectTasks_sadd.1 hp with ⟨_, he⟩ | hp
    · exact hji (h.unique j i u t hj hi he)
    · exact hn p hp
  · exact fun j k u v hj hk => h.unique j k u v (hne hj).2 (hne hk).2
  · intro j u hj
    rcases update_eq_iff.1 hj with ⟨_, rfl⟩ | ⟨_, hj⟩
    · rcases hd with hd | hd
      · cases hd
        exact mem_projectTasks_sadd.2 (.inl ⟨rfl, rfl⟩)
      · cases hd
    · exact mem_projectTasks_sadd.2 (.inr (h.indexed j u hj))

/-- The digest of an indexed task is registered. -/
theorem register (h : Filed w ds) {t : Task} (hi : ds i = .indexed t) (x : String)
    (hd : d.filing = none) :
    Filed (w.onRedis (·.setDigest x (some t.taskId))) (Function.update ds i d) := by
  have hsame := h.same (i := i) (d := d) (fun _ hm => hm) rfl (fun _ _ hx => hx) (.inr hd)
  refine ⟨hsame.known, fun y id hy => ?_, hsame.stored, hsame.unique, hsame.indexed⟩
  rcases update_eq_iff.1 hy with ⟨_, he⟩ | ⟨_, hy⟩
  · cases he
    exact ⟨t.projectName, h.indexed i t hi⟩
  · exact h.registered y id hy

end Filed

/-- A task is made under a new id, and without Redis. -/
theorem newTask_ends (w : World Text Event) (body : TaskCreateRequest) :
    ((newTask body : Py Text Event Unit _) ()).Ends exec w fun o w' =>
      ∃ t, o.1 = .ok t ∧ t.taskId ∉ w.usedIds ∧ w'.redis = w.redis := by
  obtain ⟨u, hu⟩ := Infinite.exists_notMem_finset w.usedIds.toFinset
  rw [List.mem_toFinset] at hu
  refine ends_bind.2 ⟨⟨_, _, u, hu, rfl, rfl⟩, ?_⟩
  rintro r w₁ ⟨u, hu, rfl, rfl⟩
  refine ends_bind.2 ⟨⟨_, _, ⟨0, rfl⟩, rfl⟩, ?_⟩
  rintro r w₂ ⟨⟨createdAt, rfl⟩, rfl⟩
  refine ends_bind.2 ⟨⟨_, _, ⟨0, rfl⟩, rfl⟩, ?_⟩
  rintro r w₃ ⟨⟨updatedAt, rfl⟩, rfl⟩
  exact ⟨_, rfl, hu, rfl⟩

variable [TaskJson Text]

/-- The commands of a `create_task` call. -/
def ofCreate (tr : List (SysLabel Text Event)) (i : Nat) : Cmd Text Event → Prop
  | .smembers _ | .mget _ | .getDigest _ | .get _ | .setNx .. | .sadd .. | .setDigest .. => True
  | .lpush _ => creating i tr ≠ none
  | _ => False

/-- Only commands of `create_task` calls fail, and the process lives on. -/
def createFails : Filter Text Event := fun tr _ l _ =>
  match l with
  | .abort i c _ => ofCreate tr i c
  | .halt => False
  | _ => True

/-- The failed command has not left its task where the look-ups find it and no worker does. -/
def StrayFree (w' : World Text Event) : Cmd Text Event → Prop
  | .sadd p id => id ∉ w'.redis.projectTasks p
  | .setDigest .. => False
  | .lpush x => ∀ t, parse x = some t → t.taskId ∈ w'.redis.queued.map Task.taskId
  | _ => True

/-- Moreover, no failure leaves a task behind, and no stream ends in a timeout, a cancellation, or
another exception that is no `Exception`. -/
def leavesNothing : Filter Text Event := fun tr w l w' =>
  createFails tr w l w' ∧ interrupts l = false ∧
    match l with
    | .abort _ c _ => StrayFree w' c
    | _ => True

/-- A request that comes now, with nothing else going on, returns a task. If it is not one that
another request is about to queue, it is queued, finished, or executed by a worker. -/
def AnswerLaw (S : Setup Event) (tr : List (SysLabel Text Event)) (w : World Text Event) : Prop :=
  ∀ body, ((createTask S body : Py Text Event Unit _) ()).Ends exec w fun o w' =>
    ∃ response, o.1 = .ok response ∧ ((∀ i, creating i tr ≠ some response.taskId) →
      ∃ t, w'.redis.record response.taskId = some t ∧
        (response.taskId ∈ w'.redis.queued.map Task.taskId ∨ t.isTerminal = true ∨
          ∃ i, executing i tr = some response.taskId))

/-- The look-ups can find a task that is still to be run. -/
def Findable (r : Redis Text) (t : Task) : Prop := Live t ∧ ∃ p, t.taskId ∈ r.projectTasks p

/-- Every task that can be found is in the queue or in the hands of a process that is to put it
there or to bring it to an end. -/
structure Tended (tr : List (SysLabel Text Event)) (w : World Text Event) (ds : Nat → Progress) :
    Prop where
  stages : Stages w.stage (Progress.hold ∘ ds)
  fresh : w.stage = .serving ∨ w.redis.tasks = ∅
  calm : ∀ i, (ds i).Calm
  filed : Filed w ds
  keyed : w.redis.WellKeyed
  linked : ∀ i id, (ds i).charge = some id → executing i tr = some id ∨ creating i tr = some id
  covered : Covered Task.taskId (Findable w.redis) w.redis.record w.redis.queued
    fun i => (ds i).hold.owned

/-- A failing command is one of a `create_task` call that leaves nothing behind. -/
theorem leavesNothing_cases {S : Setup Event} {tr : List (SysLabel Text Event)} {i : Nat}
    {c : Cmd Text Event} {r : c.Answer} {w w' : World Text Event} {l : SysLabel Text Event}
    (ha : (orchestrator Text S spawn exit).Answer i c r w w' l) (hok : leavesNothing tr w l w') :
    (l = .cmd i c r ∧ exec c r w w' ∨ l = .abort i c r ∧ ofCreate tr i c ∧ StrayFree w' c) ∧
      Fair c r := by
  obtain ⟨hc, hs, hp⟩ := hok
  cases ha with
  | cmd h =>
    refine ⟨.inl ⟨rfl, h⟩, fun e he => ?_⟩
    subst he
    have hf := exec_error h
    cases c with
    | iterEvents _ _ _ | awaitFuture _ _ => simpa [interrupts] using hs
    | set _ _ | delDigest _ | setDigest _ _ | acquireLock _ _ _ | publish _ _ | brpop =>
      exact absurd hf not_false
    | _ => trivial
  | abort h =>
    refine ⟨.inr ⟨rfl, hc, hp⟩, fun e he => ?_⟩
    cases c with
    | set _ _ | delDigest _ | acquireLock _ _ _ | publish _ _ | brpop | iterEvents _ _ _
    | awaitFuture _ _ => exact absurd hc not_false
    | setDigest _ _ => exact hp
    | _ => trivial

/-- Nothing of another process changes with the label of a command. -/
theorem local_answer {S : Setup Event} {i : Nat} {c : Cmd Text Event} {r : c.Answer}
    {w w' : World Text Event} {l : SysLabel Text Event}
    (ha : (orchestrator Text S spawn exit).Answer i c r w w' l) : Local i l := by
  cases ha with
  | cmd _ => exact local_cmd i c r
  | abort _ => exact fun _ _ => ⟨rfl, rfl⟩

/-- A command that neither makes, takes nor queues a task is not noted. -/
theorem silent_answer {S : Setup Event} {i : Nat} {c : Cmd Text Event} {r : c.Answer}
    {w w' : World Text Event} {l : SysLabel Text Event}
    (ha : (orchestrator Text S spawn exit).Answer i c r w w' l)
    (hc : c.quiet = true ∨ ∃ id x, c = .set id x) : Silent l := by
  cases ha with
  | cmd _ =>
    rcases hc with hc | ⟨id, x, rfl⟩
    · exact silent_cmd hc i r
    · exact fun _ => ⟨rfl, rfl⟩
  | abort _ => exact fun _ => ⟨rfl, rfl⟩

namespace Tended
variable {S : Setup Event} {tr : List (SysLabel Text Event)} {w w' : World Text Event}
  {ds : Nat → Progress} {l : SysLabel Text Event} {i : Nat} {d : Progress}
  {c : Cmd Text Event} {r : c.Answer}

/-- A move from what was tended to what is. -/
theorem update (h : Tended tr w ds)
    (hst : Stages w'.stage (Progress.hold ∘ Function.update ds i d))
    (hf : w'.stage = .serving ∨ w'.redis.tasks = ∅) (hd : d.Calm)
    (hfiled : Filed w' (Function.update ds i d)) (hk : w'.redis.WellKeyed) (hl : Local i l)
    (hlink : ∀ id, d.charge = some id →
      executing i (l :: tr) = some id ∨ creating i (l :: tr) = some id)
    (hcov : Covered Task.taskId (Findable w'.redis) w'.redis.record w'.redis.queued
      (Function.update (fun j => (ds j).hold.owned) i d.hold.owned)) :
    Tended (l :: tr) w' (Function.update ds i d) := by
  refine ⟨hst, hf, fun j => ?_, hfiled, hk, fun j id hj => ?_, ?_⟩
  · by_cases hji : j = i
    · rw [hji, Function.update_self]
      exact hd
    · rw [Function.update_of_ne hji]
      exact h.calm j
  · by_cases hji : j = i
    · rw [hji, Function.update_self] at hj
      rw [hji]
      exact hlink id hj
    · rw [Function.update_of_ne hji] at hj
      rw [executing_local hl hji, creating_local hl hji]
      exact h.linked j id hj
  · have ho : (fun j => (Function.update ds i d j).hold.owned) =
        Function.update (fun j => (ds j).hold.owned) i d.hold.owned :=
      Function.comp_update (fun d => Progress.hold d |>.owned) ds i d
    rwa [ho]

/-- The recovery, which comes before everything else, finds no task. -/
theorem not_read (h : Tended tr w ds) (ha : (orchestrator Text S spawn exit).Answer i c r w w' l)
    (hm : Move S (ds i) c r d) (t : Task) : d ≠ .read t := by
  rintro rfl
  have hs : (ds i).stage = some .recovering := hm.stage.symm
  have hw : w.stage = .recovering :=
    h.stages.now i _ (by rw [Function.comp_apply, stage_hold, hs])
  have hnone : w.redis.tasks = ∅ := h.fresh.resolve_left (by rw [hw]; decide)
  have hcalm := h.calm i
  generalize ds i = d₀ at hm hs hcalm
  cases d₀ with
  | scanning =>
    cases hm with
    | read hx _ =>
      rename_i x id
      rcases answer_effect ha with ⟨a, ⟨he, _⟩, hr⟩ | ⟨⟨e, he⟩, _⟩
      · rw [hnone, AList.lookup_empty, ← hr _ rfl] at he
        cases he
      · cases he
  | read _ | marked _ => exact hcalm
  | _ => cases hs

theorem serving (h : Tended tr w ds) (hi : (ds i).stage = some .serving) : w.stage = .serving :=
  h.stages.now i _ (by rw [Function.comp_apply, stage_hold, hi])

/-- A process goes on with no task, and Redis is as it was. -/
theorem rest (h : Tended tr w ds)
    (hst : Stages w'.stage (Progress.hold ∘ Function.update ds i .idle)) (hu : Untouched w w')
    (hl : Local i l) (hi : ∀ v x, (ds i).hold.owned = some v → w.redis.record v.taskId = some x →
      Findable w.redis x → v.taskId ∈ w.redis.queued.map Task.taskId) :
    Tended (l :: tr) w' (Function.update ds i .idle) := by
  refine h.update hst ?_ trivial ?_ (wellKeyed_congr hu.sameTasks h.keyed) hl
    (fun id hc => by cases hc) ?_
  · rw [hu.stage, hu.redis]
    exact h.fresh
  · refine h.filed.same (fun id hid => ?_) hu.sameIndex.projectTasks (fun y id hy => ?_) (.inr rfl)
    · rwa [hu.sameTasks.tasks]
    · rwa [← hu.sameIndex.digests]
  · rw [hu.redis]
    exact h.covered.release hi

theorem answer (h : Tended tr w ds) (ha : (orchestrator Text S spawn exit).Answer i c r w w' l)
    (hok : leavesNothing tr w l w') (hm : Move S (ds i) c r d) :
    Tended (l :: tr) w' (Function.update ds i d) := by
  obtain ⟨hl, hfair⟩ := leavesNothing_cases ha hok
  obtain ⟨hdeed, hcalm⟩ := hm.deed (h.calm i) hfair (h.not_read ha hm)
  have hst := h.stages.move ha hm
  have hloc : Local i l := local_answer ha
  -- a step that leaves the tasks, the queue and the indices alone
  have hsame (hs : SameTasks w w') (hi : w'.redis.projectTasks = w.redis.projectTasks)
      (hf : Filed w' (Function.update ds i d)) (hc : c.quiet = true)
      (hd : d.charge = (ds i).charge) : Tended (l :: tr) w' (Function.update ds i d) := by
    refine h.update hst ?_ hcalm hf (wellKeyed_congr hs h.keyed) hloc (fun id hid => ?_) ?_
    · rw [hs.stage, hs.tasks]
      exact h.fresh
    · have hsil : Silent l := silent_answer ha (.inl hc)
      rw [executing_silent hsil, creating_silent hsil]
      exact h.linked i id (hd ▸ hid)
    · rw [hs.record, hs.queued]
      have hfind : Findable w'.redis = Findable w.redis := by
        funext t
        rw [Findable, Findable, hi]
      rw [hfind]
      exact h.covered.keep hd
  generalize hdi : ds i = d₀ at hdeed
  cases hdeed with
  | aside hq hi hc hf =>
    have hs : SameTasks w w' := answer_sameTasks hq ha
    have hpg : w'.redis.projectTasks = w.redis.projectTasks ∧
        ∀ x id, w'.redis.digests x = some id → w.redis.digests x = some id := by
      rcases hi with hi | ⟨x, rfl⟩
      · have hidx := answer_sameIndex hi ha
        exact ⟨hidx.projectTasks, fun y id hy => by rwa [← hidx.digests]⟩
      · rcases answer_effect ha with ⟨_, ⟨_, rfl⟩, _⟩ | ⟨_, hu⟩
        · refine ⟨rfl, fun y id hy => ?_⟩
          rcases update_eq_iff.1 hy with ⟨_, he⟩ | ⟨_, hy⟩
          · cases he
          · exact hy
        · rw [hu.redis]
          exact ⟨rfl, fun _ _ hy => hy⟩
    refine hsame hs hpg.1 (h.filed.same (fun id hid => ?_) hpg.1 hpg.2 ?_) hq (hdi ▸ hc)
    · rwa [hs.tasks]
    · rwa [hdi]
  | register =>
    rename_i t x r
    rcases answer_effect ha with ⟨_, ⟨_, rfl⟩, _⟩ | ⟨⟨e, rfl⟩, _⟩
    · exact hsame ⟨rfl, rfl, rfl⟩ rfl (h.filed.register hdi x rfl) rfl (by rw [hdi]; rfl)
    · exact absurd (hfair e rfl) not_false
  | write hd hd' hf =>
    rename_i u r
    obtain rfl : w' = w.onRedis (·.set u.taskId (modelDumpJson u)) := by
      rcases set_effect ha with hw | ⟨⟨e, rfl⟩, _⟩
      · exact hw
      · exact absurd (hfair e rfl) not_false
    obtain ⟨v, hv, hid⟩ := Option.map_eq_some_iff.1 hd
    have hins (id : String) (hm : id ∈ w.redis.tasks) :
        id ∈ (w.redis.set u.taskId (modelDumpJson u)).tasks := AList.mem_insert _ |>.2 (.inr hm)
    have hserve : w.stage = .serving := h.serving (by rw [hdi, stage_of_charge hd])
    refine h.update hst (.inl hserve) hcalm (h.filed.same hins rfl (fun _ _ hy => hy) (.inr hf))
      (wellKeyed_set h.keyed u) hloc (fun id hc => ?_) ?_
    · rw [Progress.charge, hd'] at hc
      split at hc
      · cases hc
      · cases hc
        have hsil : Silent l := silent_answer ha (.inr ⟨_, _, rfl⟩)
        rw [executing_silent hsil, creating_silent hsil]
        exact h.linked i u.taskId (by rw [hdi, hd])
    · simp only [World.onRedis, Redis.record_set_dump, Redis.queued_set]
      refine h.covered.write (fun x hx => ?_) fun hu => ?_
      · rw [hdi, hv] at hx
        cases hx
        exact hid
      · rw [hd', if_neg (Bool.eq_false_iff.1 hu.1)]
  | store ht =>
    rename_i t r
    have hserve : w.stage = .serving := h.serving (by rw [hdi]; rfl)
    rcases setNx_effect ha with ⟨hid, rfl, hr⟩ | ⟨hr, hw⟩
    · have hd : granted r (.stored t) .idle = .stored t ∧ r = .ok true ∨
          granted r (.stored t) .idle = .idle := by
        rcases r with e | _ | _
        · exact .inr rfl
        · exact absurd rfl hr
        · exact .inl ⟨rfl, rfl⟩
      refine h.update hst (.inl hserve) hcalm (h.filed.store _ hid (hd.imp_left And.left))
        (wellKeyed_set h.keyed t) hloc (fun id hc => ?_) ?_
      · rcases hd with ⟨hd, rfl⟩ | hd
        · rw [hd] at hc
          cases hc
          cases ha with
          | cmd _ => exact .inr (by simp only [creating, saved, ↓reduceIte, Option.getD_some])
          | abort hx =>
            obtain ⟨_, he, _⟩ := hx
            cases he
        · rw [hd] at hc
          cases hc
      · simp only [World.onRedis, Redis.record_set_dump, Redis.queued_set]
        refine h.covered.write (fun x hx => ?_) fun hu => ?_
        · rw [hdi] at hx
          cases hx
        · obtain ⟨p, hp⟩ := hu.2
          exact absurd (h.filed.known p _ hp) hid
    · have hd : granted r (.stored t) .idle = .idle := by
        rcases r with e | _ | _
        · rfl
        · rfl
        · exact absurd rfl hr
      rw [hd] at hst ⊢
      exact h.rest hst hw hloc fun v x hv => by cases hdi ▸ hv
  | index =>
    rename_i t r
    have hserve : w.stage = .serving := h.serving (by rw [hdi]; rfl)
    rcases sadd_effect ha with rfl | ⟨⟨e, rfl⟩, hu⟩
    · rcases r with e | _
      · rcases hl with ⟨_, hx⟩ | ⟨_, _, hn⟩
        · cases hx.1
        · exact absurd (mem_projectTasks_sadd.2 (.inl ⟨rfl, rfl⟩)) hn
      · have howned : (settle (.ok ()) (entered t) fun _ => .idle).hold.owned = some t :=
          entered_eq (p := fun d => d.hold.owned) rfl rfl
        refine h.update hst (.inl hserve) hcalm (h.filed.index hdi ?_) h.keyed hloc
          (fun id hc => ?_) fun k v hk hv => ?_
        · exact (em _).imp (fun hq => (if_neg hq : entered t = .indexed t)) fun hq => by
            rw [settle, entered, if_pos (not_not.1 hq)]
            rfl
        · rw [Progress.charge, howned] at hc
          cases hc
          have hsil : Silent l := silent_answer ha (.inl rfl)
          rw [executing_silent hsil, creating_silent hsil]
          exact h.linked i t.taskId (by rw [hdi]; rfl)
        · by_cases hkt : k = t.taskId
          · exact .inr ⟨i, t, by rw [Function.update_self, howned], hkt.symm⟩
          · refine h.covered.keep (o := _) ?_ k v hk ⟨hv.1, ?_⟩
            · rw [howned, hdi]
              rfl
            · obtain ⟨p, hp⟩ := hv.2
              rcases mem_projectTasks_sadd.1 hp with ⟨_, he⟩ | hp
              · exact absurd ((h.keyed k v hk).symm.trans he) hkt
              · exact ⟨p, hp⟩
    · refine h.rest hst hu hloc fun v x hv hx hlive => ?_
      rw [hdi] at hv
      cases hv
      obtain ⟨p, hp⟩ := hlive.2
      rw [h.keyed _ x hx] at hp
      exact absurd hp ((h.filed.stored i t hdi).2 p)
  | push =>
    rename_i t r
    have hserve : w.stage = .serving := h.serving (by rw [hdi]; rfl)
    rcases lpush_effect ha with rfl | ⟨⟨e, rfl⟩, hu⟩
    · refine h.update hst (.inl hserve) hcalm
        (h.filed.same (fun _ hid => hid) rfl (fun _ _ hy => hy) (.inr rfl)) h.keyed hloc
        (fun id hc => by cases hc) ?_
      simp only [World.onRedis, Redis.record_lpush, Redis.queued_lpush_dump]
      exact h.covered.push (by rw [hdi]; rfl)
    · rcases hl with ⟨_, hx⟩ | ⟨_, _, hn⟩
      · cases hx.1
      · refine h.rest hst hu hloc fun v x hv _ _ => ?_
        rw [hdi] at hv
        cases hv
        rw [StrayFree, hu.redis] at hn
        exact hn t (parse_dump t)
  | pop hx =>
    rename_i x t
    have hserve : w.stage = .serving := h.serving (by rw [hdi]; rfl)
    rcases brpop_effect ha with ⟨y, hy, rfl, hr⟩ | ⟨hr, _⟩
    · cases hr _ rfl
      refine h.update hst (.inl hserve) hcalm
        (h.filed.same (fun _ hid => hid) rfl (fun _ _ hy => hy) (.inr rfl)) h.keyed hloc
        (fun id hc => ?_) ?_
      · cases hc
        cases ha with
        | cmd _ =>
          exact .inl (by simp only [executing, taken, ↓reduceIte, hx, Option.map_some,
            Option.getD_some])
        | abort ha =>
          obtain ⟨_, he, _⟩ := ha
          cases he
      · have hcov := h.covered
        rw [Redis.queued_getLast hy, hx] at hcov
        exact hcov.pop (by rw [hdi]; rfl)
    · exact absurd rfl (hr x)
  | popNothing hx =>
    rename_i r
    have hserve : w.stage = .serving := h.serving (by rw [hdi]; rfl)
    rcases brpop_effect ha with ⟨y, hy, rfl, hr⟩ | ⟨_, hu⟩
    · refine h.update hst (.inl hserve) hcalm
        (h.filed.same (fun _ hid => hid) rfl (fun _ _ hy => hy) (.inr rfl)) h.keyed hloc
        (fun id hc => by cases hc) ?_
      have hnone : parse y = none := by
        rcases r with e | o
        · exact absurd (hfair e rfl) not_false
        · exact hx y (congrArg Except.ok (hr o rfl))
      have hcov := h.covered
      rw [Redis.queued_getLast hy, hnone, Option.toList_none, List.append_nil] at hcov
      exact hcov.keep (by rw [hdi])
    · exact h.rest hst hu hloc fun v x hv => by cases hdi ▸ hv

/-- A process without a charge comes or goes. -/
theorem change (h : Tended tr w ds) (hw : w'.redis = w.redis)
    (hst : Stages w'.stage (Progress.hold ∘ Function.update ds i d))
    (hf : w'.stage = .serving ∨ w'.redis.tasks = ∅) (hl : Local i l) (hi : (ds i).charge = none)
    (hd : d = .gone ∨ ∃ q : Kind, d = q.entry) : Tended (l :: tr) w' (Function.update ds i d) := by
  have hd : d.charge = none ∧ d.filing = none ∧ d.Calm := by
    rcases hd with rfl | ⟨q, rfl⟩
    · exact ⟨rfl, rfl, trivial⟩
    · cases q <;> exact ⟨rfl, rfl, trivial⟩
  refine h.update hst hf hd.2.2 ?_ (hw ▸ h.keyed) hl (fun id hid => ?_) ?_
  · refine h.filed.same ?_ ?_ ?_ (.inr hd.2.1) <;> rw [hw]
    · exact fun _ hm => hm
    · exact fun _ _ hx => hx
  · cases hd.1.symm.trans hid
  · rw [hw]
    exact h.covered.keep (hd.1.trans hi.symm)

end Tended

def tending (Text : Type) [TaskJson Text] (S : Setup Event) :
    Assertion (orchestrator Text S spawn exit) Progress where
  ok := leavesNothing
  inv := Tended
  guar _ _ _ := True

theorem charge_entry (q : Kind) : q.entry.charge = none := by cases q <;> rfl

theorem tending_tracked {S : Setup Event} : Tracked (tending Text S) World.init where
  start := by
    refine ⟨.idle _, .inr rfl, fun _ => trivial, ⟨?_, ?_, ?_, ?_, ?_⟩, ?_, ?_, ?_⟩
    · exact fun _ _ hid => nomatch hid
    · exact fun _ _ hx => nomatch hx
    · exact fun _ _ hi => nomatch hi
    · exact fun _ _ _ _ hi => nomatch hi
    · exact fun _ _ hi => nomatch hi
    · exact fun _ _ ht => nomatch ht
    · exact fun _ _ hi => nomatch hi
    · exact fun _ _ hv => nomatch hv
  move tr w ds i c r w' l d hi ha hok hm := ⟨trivial, hi.answer ha hok hm⟩
  spawn tr w ds i q w' hi hd hs _ := by
    refine ⟨trivial, hi.change (redis_spawn hs) (hi.stages.spawn hs) ?_ (fun _ _ => ⟨rfl, rfl⟩)
      (by rw [hd]; rfl) (.inr ⟨q, rfl⟩)⟩
    cases q with
    | recover =>
      obtain ⟨hst, rfl⟩ := hs
      exact .inr (hi.fresh.resolve_left (by rw [hst]; decide))
    | worker | request _ =>
      obtain ⟨hst, rfl⟩ := hs
      exact .inl hst
  exit tr w ds i q b w' o hi hd he _ := by
    refine ⟨trivial, hi.change (redis_exit he) (hi.stages.exit hd he) ?_ (local_exit i q b)
      (by rw [hd, charge_entry]) ?_⟩
    · cases q with
      | recover =>
        have hst : w.stage = .recovering := hi.stages.now i _ (by rw [Function.comp_apply, hd]; rfl)
        have hnone := hi.fresh.resolve_left (by rw [hst]; decide)
        cases b <;> obtain ⟨_, rfl⟩ := he <;> exact .inr hnone
      | worker =>
        cases b <;> obtain ⟨_, rfl⟩ := he <;> exact hi.fresh
      | request body =>
        obtain ⟨_, rfl⟩ := he
        exact hi.fresh
    · cases o with
      | none => exact .inl rfl
      | some q' => exact .inr ⟨q', rfl⟩
  env tr w ds e w' hi ht _ := by
    have hs := tick_quiet ht
    have hx := tick_sameIndex ht
    refine ⟨trivial, ?_, ?_, hi.calm, ?_, wellKeyed_congr hs hi.keyed, hi.linked, ?_⟩
    · rw [hs.stage]
      exact hi.stages
    · rw [hs.stage, hs.tasks]
      exact hi.fresh
    · have hf := hi.filed
      constructor
      · rw [hx.projectTasks, hs.tasks]
        exact hf.known
      · rw [hx.projectTasks, hx.digests]
        exact hf.registered
      · rw [hx.projectTasks, hs.tasks]
        exact hf.stored
      · exact hf.unique
      · rw [hx.projectTasks]
        exact hf.indexed
    · have hfind : Findable w'.redis = Findable w.redis := by
        funext t
        rw [Findable, Findable, hx.projectTasks]
      rw [hs.record, hs.queued, hfind]
      exact hi.covered
  halt _ _ _ _ _ _ hok := absurd hok.1 not_false

/-! What a request comes to when it runs alone. -/

/-- A request can find the record. -/
def Offered (w : World Text Event) (t : Task) : Prop :=
  ∃ id, ((∃ p, id ∈ w.redis.projectTasks p) ∨ ∃ x, w.redis.digests x = some id) ∧
    w.redis.record id = some t

section
variable {S : Setup Event} {w : World Text Event}

theorem listByProject_ends (p : String) :
    ((TaskStore.listByProject p : Py Text Event Unit _) ()).Ends exec w fun o w' =>
      (∃ ts, o.1 = .ok ts ∧ ts.Perm ((w.redis.projectTasks p).filterMap w.redis.record)) ∧
        w' = w := by
  refine ends_bind.2 ⟨⟨_, w, ⟨_, rfl, .refl _⟩, rfl⟩, ?_⟩
  rintro r w' ⟨⟨ids, rfl, hp⟩, rfl⟩
  have hperm := hp.filterMap w'.redis.record
  cases ids with
  | nil => exact ⟨⟨[], rfl, hperm⟩, rfl⟩
  | cons id ids =>
    refine (ends_reply fun _ _ => Iff.rfl).2 ⟨⟨_, rfl, ?_⟩, rfl⟩
    rw [List.filterMap_map]
    exact hperm

theorem findIncomplete_ends (p : String) :
    ((TaskStore.findIncomplete p : Py Text Event Unit _) ()).Ends exec w fun o w' =>
      (∃ found, o.1 = .ok found ∧ ∀ t ∈ found, Offered w t) ∧ w' = w := by
  refine ends_map.2 ((listByProject_ends p).mono ?_)
  rintro ⟨_, _⟩ w' ⟨⟨ts, rfl, hts⟩, rfl⟩
  refine ⟨⟨_, rfl, fun t ht => ?_⟩, rfl⟩
  obtain ⟨id, hid, hr⟩ := List.mem_filterMap.1 (hts.mem_iff.1 (List.mem_of_find?_eq_some ht))
  exact ⟨id, .inl ⟨p, hid⟩, hr⟩

/-- A request for a project whose only task is pending returns this task. -/
theorem createTask_found {body : TaskCreateRequest} {id : String} {t : Task}
    (hp : w.redis.projectTasks body.projectName = [id]) (hr : w.redis.record id = some t)
    (ht : t.status = .pending) :
    ((createTask S body : Py Text Event Unit _) ()).Ends exec w fun o w' =>
      o.1 = .ok (.fromTask t) ∧ w' = w := by
  have hfind : [t].find? (fun task => task.status = .pending || task.status = .running) = some t :=
    List.find?_cons_of_pos (by simp only [ht, decide_true, Bool.true_or])
  refine ends_bind.2 (ends_bind.2 (ends_map.2 ((listByProject_ends body.projectName).mono ?_)))
  rintro ⟨_, _⟩ w' ⟨⟨ts, rfl, hts⟩, rfl⟩
  rw [hp, List.filterMap_cons_some hr, List.filterMap_nil, List.perm_singleton] at hts
  subst hts
  simp only [Except.map, hfind]
  exact ⟨rfl, rfl⟩

section
variable (hr : ∀ id ∈ w.redis.tasks, ∃ t, w.redis.record id = some t)
include hr

theorem get_ends (id : String) : ((TaskStore.get id : Py Text Event Unit _) ()).Ends exec w
    fun o w' => o.1 = .ok (w.redis.record id) ∧ w' = w := by
  refine (ends_reply fun _ _ => Iff.rfl).2 ?_
  cases hx : w.redis.tasks.lookup id with
  | none => exact ⟨by rw [Redis.record, hx, Option.bind_none], rfl⟩
  | some x =>
    obtain ⟨t, ht⟩ := hr id (AList.lookup_isSome.1 (hx ▸ rfl))
    rw [ht]
    rw [Redis.record, hx, Option.bind_some] at ht
    simp only [parse_eq_some.1 ht]
    exact ⟨rfl, rfl⟩

theorem findByDigest_ends (p r : String) :
    ((TaskStore.findByDigest S p r : Py Text Event Unit _) ()).Ends exec w fun o w' =>
      (∃ found, o.1 = .ok found ∧ ∀ t ∈ found, Offered w t) ∧ w' = w := by
  refine (ends_reply fun _ _ => Iff.rfl).2 ?_
  cases hx : w.redis.digests (digestKey S p r) with
  | none => exact ⟨⟨none, rfl, fun _ ht => by cases ht⟩, rfl⟩
  | some id =>
    apply (get_ends hr id).mono
    rintro ⟨_, _⟩ w' ⟨rfl, rfl⟩
    exact ⟨⟨_, rfl, fun t ht => ⟨id, .inr ⟨_, hx⟩, ht⟩⟩, rfl⟩

theorem findExisting_ends (body : TaskCreateRequest) :
    ((findExisting S body : Py Text Event Unit _) ()).Ends exec w fun o w' =>
      (∃ found, o.1 = .ok found ∧ ∀ t ∈ found, Offered w t) ∧ w' = w := by
  refine ends_bind.2 ((findIncomplete_ends body.projectName).mono ?_)
  rintro ⟨_, _⟩ w' ⟨⟨found, rfl, hfound⟩, rfl⟩
  cases found with
  | some t => exact ⟨⟨_, rfl, hfound⟩, rfl⟩
  | none => exact findByDigest_ends hr body.projectName body.requirement

end

theorem save_ends {t : Task} (hid : t.taskId ∉ w.redis.tasks) :
    ((TaskStore.save S t : Py Text Event Unit _) ()).Ends exec w fun o w' =>
      o.1 = .ok () ∧ w'.redis.record t.taskId = some t := by
  have hr : (w.redis.set t.taskId (modelDumpJson t)).record t.taskId = some t := by
    rw [Redis.record_set_dump, Function.update_self]
  have hset (r : Except Exc Bool) (w' : World Text Event) :
      exec (.setNx t.taskId (modelDumpJson t)) r w w' ↔
        r = .ok true ∧ w' = w.onRedis (·.set t.taskId (modelDumpJson t)) := by
    simp only [exec, if_neg hid]
  refine (ends_reply hset).2 ((ends_reply fun _ _ => Iff.rfl).2 ?_)
  by_cases hreq : t.requirement = ""
  · rw [if_neg (not_not.2 hreq)]
    exact ⟨rfl, hr⟩
  · rw [if_pos hreq]
    exact (ends_call fun _ _ => Iff.rfl).2 ⟨rfl, hr⟩

end

namespace Tended
variable {tr : List (SysLabel Text Event)} {w : World Text Event} {ds : Nat → Progress} {t : Task}

theorem record (h : Tended tr w ds) (ht : Offered w t) : w.redis.record t.taskId = some t := by
  obtain ⟨id, _, hr⟩ := ht
  rw [h.keyed id t hr, hr]

/-- A live task that a request can find is in the queue, or a process has it. -/
theorem place (h : Tended tr w ds) (ht : Offered w t) (hlive : t.isTerminal = false) :
    t.taskId ∈ w.redis.queued.map Task.taskId ∨
      ∃ i, executing i tr = some t.taskId ∨ creating i tr = some t.taskId := by
  have hr := h.record ht
  obtain ⟨id, hid, hx⟩ := ht
  obtain rfl : t.taskId = id := h.keyed id t hx
  have hp : ∃ p, t.taskId ∈ w.redis.projectTasks p :=
    hid.elim (fun hp => hp) fun ⟨x, hx⟩ => h.filed.registered x _ hx
  rcases h.covered t.taskId t hr ⟨hlive, hp⟩ with hq | ⟨i, u, hu, he⟩
  · exact .inl hq
  · refine .inr ⟨i, ?_⟩
    rw [← he]
    exact h.linked i u.taskId (congrArg (Option.map Task.taskId) hu)

theorem answerLaw {S : Setup Event} (h : Tended tr w ds) (hr : Readable tr w) :
    AnswerLaw S tr w := by
  intro body
  refine ends_bind.2 ((findExisting_ends hr.reads body).mono ?_)
  rintro ⟨_, _⟩ w' ⟨⟨found, rfl, hfound⟩, rfl⟩
  cases found with
  | some t =>
    refine ⟨.fromTask t, rfl, fun hc => ?_⟩
    cases ht : t.isTerminal with
    | true => exact ⟨t, h.record (hfound t rfl), .inr (.inl ht)⟩
    | false =>
      refine ⟨t, h.record (hfound t rfl), ?_⟩
      rcases h.place (hfound t rfl) ht with hq | ⟨i, hi | hi⟩
      · exact .inl hq
      · exact .inr (.inr ⟨i, hi⟩)
      · exact absurd hi (hc i)
  | none =>
    refine ends_bind.2 ((newTask_ends _ body).mono ?_)
    rintro ⟨_, _⟩ w₁ ⟨t, rfl, hid, hw⟩
    have hfree : t.taskId ∉ w₁.redis.tasks := by
      rw [hw]
      exact fun hm => hid (hr.used _ hm)
    refine ends_bind.2 ((save_ends hfree).mono ?_)
    rintro ⟨_, _⟩ w₂ ⟨rfl, hrec⟩
    refine (ends_reply fun _ _ => Iff.rfl).2 ?_
    refine ⟨.fromTask t, rfl, fun _ => ⟨t, hrec, .inl ?_⟩⟩
    rw [World.onRedis, Redis.queued_lpush_dump]
    exact List.mem_cons_self

end Tended

/-- Whatever a `create_task` call has failed at, if it has left nothing behind: later requests get
tasks that are in the queue, finished, or executed by a worker. -/
theorem answer_law {S : Setup Event} {tr : List (SysLabel Text Event)} {s : SysConfig Text Event}
    (hr : Run (system Text S) leavesNothing (.idle .init) tr s) : AnswerLaw S tr s.world := by
  have hA : Tracked (tending Text S) World.init := tending_tracked
  obtain ⟨ds, h⟩ := hA.sound.inv hr
  exact h.answerLaw (readable_of_run (hr.refine fun _ _ _ _ _ _ _ => trivial))

instance (tr : List (SysLabel Text Event)) (i : Nat) (c : Cmd Text Event) :
    Decidable (ofCreate tr i c) :=
  match c with
  | .smembers _ | .mget _ | .getDigest _ | .get _ | .setNx .. | .sadd .. | .setDigest .. =>
    isTrue trivial
  | .lpush _ => inferInstanceAs (Decidable (creating i tr ≠ none))
  | .set .. | .delDigest _ | .brpop | .scan | .publish .. | .acquireLock .. | .evalRelease ..
  | .now | .uuid4 | .sleep | .log _ | .createHeartbeat .. | .cancelHeartbeat _
  | .awaitHeartbeat _ | .factoryGet .. | .projectExists _ | .setProjectName _
  | .checkpointExists _ | .iterEvents .. | .runInExecutor .. | .awaitFuture .. => isFalse not_false

instance (tr : List (SysLabel Text Event)) (w : World Text Event) (l : SysLabel Text Event)
    (w' : World Text Event) : Decidable (createFails tr w l w') :=
  match l with
  | .abort i c _ => inferInstanceAs (Decidable (ofCreate tr i c))
  | .halt => isFalse not_false
  | .cmd .. | .spawn .. | .exit .. | .env _ => isTrue trivial

instance (w' : World Text Event) (c : Cmd Text Event) : Decidable (StrayFree w' c) :=
  match c with
  | .sadd p id => inferInstanceAs (Decidable (id ∉ w'.redis.projectTasks p))
  | .setDigest .. => isFalse not_false
  | .lpush x => inferInstanceAs
      (Decidable (∀ t ∈ parse x, Task.taskId t ∈ w'.redis.queued.map Task.taskId))
  | .smembers _ | .mget _ | .getDigest _ | .get _ | .setNx ..
  | .set .. | .delDigest _ | .brpop | .scan | .publish .. | .acquireLock .. | .evalRelease ..
  | .now | .uuid4 | .sleep | .log _ | .createHeartbeat .. | .cancelHeartbeat _
  | .awaitHeartbeat _ | .factoryGet .. | .projectExists _ | .setProjectName _
  | .checkpointExists _ | .iterEvents .. | .runInExecutor .. | .awaitFuture .. => isTrue trivial

instance (tr : List (SysLabel Text Event)) (w : World Text Event) (l : SysLabel Text Event)
    (w' : World Text Event) : Decidable (leavesNothing tr w l w') :=
  match l with
  | .abort _ c _ => @instDecidableAnd _ _ inferInstance
      (@instDecidableAnd _ _ inferInstance (inferInstanceAs (Decidable (StrayFree w' c))))
  | .halt | .cmd .. | .spawn .. | .exit .. | .env _ => @instDecidableAnd _ _ inferInstance
      (@instDecidableAnd _ _ inferInstance (isTrue trivial))

/-- A computed loss of the connection, before Redis has carried the command out or after it. -/
def lose (x : Hint String) (c : Cmd Task String) (w : World Task String) :
    Option (c.Answer × World Task String) :=
  if c.onRedis then
    match x with
    | .expires =>
      match answer .auto c w with
      | some (.ok _, w') => some (.error ⟨.other, ""⟩, w')
      | _ => none
    | _ => some (.error ⟨.other, ""⟩, c.giveUp w)
  else none

theorem lose_abort {x : Hint String} {c : Cmd Task String} {w w' : World Task String}
    {r : c.Answer} (h : lose x c w = some (r, w')) : abort c r w w' := by
  unfold lose at h
  split at h
  · rename_i hc
    split at h
    · split at h
      · rename_i a w₁ ha
        cases h
        exact ⟨_, rfl, .inr ⟨hc, rfl⟩, .inr ⟨a, answer_exec ha⟩⟩
      · cases h
    · cases h
      exact ⟨_, rfl, .inr ⟨hc, rfl⟩, .inl rfl⟩
  · cases h

/-- A deployment whose connections to Redis can be lost. -/
def lossyDriver : Driver (system Task demo) (Hint String) :=
  demoDriver.withAbort (fun x _ => lose x) lose_abort

/-- One request loses the connection before its `SADD`, and another one after its `LPUSH`. -/
def sparedRequests : Schedule :=
  start ++ [.spawn 1 (.request demoRequest)] ++ go 1 6 ++
    [.abort 1 .auto, .exit 1, .spawn 2 (.request demoRequest)] ++ go 2 8 ++
    [.abort 2 .expires, .exit 2]

/-- A request loses the connection before the `SET` of its digest. -/
def strandedRequest : Schedule :=
  start ++ [.spawn 1 (.request demoRequest)] ++ go 1 7 ++ [.abort 1 .auto, .exit 1]

theorem answer_law_spared : ∃ tr s, DemoRun leavesNothing tr s ∧
    s.world.redis.tasks.keys = ["uu", "u"] ∧ s.world.redis.queued.map Task.taskId = ["uu"] ∧
    AnswerLaw demo tr s.world := by
  obtain ⟨tr, s, hr, hs⟩ := lossyDriver.drive_observe leavesNothing (.idle .init) sparedRequests
    (fun o => some (o.2.world.redis.tasks.keys, o.2.world.redis.queued.map Task.taskId))
    (show _ = some (["uu", "u"], ["uu"]) by decide)
  obtain ⟨hk, hq⟩ := Prod.mk.inj (Option.some.inj hs)
  exact ⟨tr, s, hr, hk, hq, answer_law hr⟩

theorem not_answer_law : ¬∀ tr s, DemoRun createFails tr s → AnswerLaw demo tr s.world := by
  intro h
  obtain ⟨tr, s, hr, hs⟩ := lossyDriver.drive_observe createFails (.idle .init) strandedRequest
    (fun o => some (o.2.world.redis.projectTasks "p",
      (o.2.world.redis.record "u").map fun t => (t.taskId, t.status),
      o.2.world.redis.queued,
      (o.1.filterMap actor).all fun i => executing i o.1 = none ∧ creating i o.1 = none))
    (show _ = some (["u"], some ("u", .pending), [], true) by decide)
  simp only [Option.some.injEq, Prod.mk.injEq, List.all_eq_true, decide_eq_true_eq] at hs
  obtain ⟨hp, hu, hq, hfree⟩ := hs
  obtain ⟨t, ht, he⟩ := Option.map_eq_some_iff.1 hu
  obtain ⟨hid, hst⟩ := Prod.mk.inj he
  have hnone (i : Nat) : executing i tr ≠ some "u" ∧ creating i tr ≠ some "u" := by
    constructor <;> intro hi
    · rw [(hfree i (actor_of_held (.inl hi))).1] at hi
      cases hi
    · rw [(hfree i (actor_of_held (.inr hi))).2] at hi
      cases hi
  have hfound : ((createTask demo demoRequest : Py Task String Unit _) ()).Ends exec s.world
      fun o w' => o.1 = .ok (.fromTask t) ∧ w' = s.world := createTask_found hp ht hst
  obtain ⟨o, w', heval⟩ := hfound.exists_eval
  obtain ⟨ho, rfl⟩ := hfound.of_eval heval
  obtain ⟨response, hr', hplace⟩ := (h tr s hr demoRequest).of_eval heval
  obtain rfl : response = .fromTask t := Except.ok.inj (hr'.symm.trans ho)
  have hresp : (TaskResponse.fromTask t).taskId = "u" := hid
  rw [hresp] at hplace
  obtain ⟨v, hv, hm | hm | ⟨i, hi⟩⟩ := hplace fun i => (hnone i).2
  · rw [hq] at hm
    cases hm
  · obtain rfl : t = v := Option.some.inj (ht.symm.trans hv)
    rw [Task.isTerminal, hst] at hm
    cases hm
  · exact (hnone i).1 hi

end Orchestrator
