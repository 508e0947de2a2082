import Orchestrator.Effect
import Orchestrator.Recovery
import Orchestrator.Schedule
import Orchestrator.Concurrency.Custody
import Orchestrator.Concurrency.Monitor

namespace Orchestrator
open Concurrency Async Progress
set_option autoImplicit true

/-- A task is in the index of its project, or is about to be. -/
def Listed (w : World Text Event) (ds : Nat → Progress) (u : Task) : Prop :=
  u.taskId ∈ w.redis.projectTasks u.projectName ∨ ∃ i t, ds i = .stored t ∧ t.SameTask u

theorem Listed.same {w : World Text Event} {ds : Nat → Progress} {t u : Task}
    (h : Listed w ds t) (hu : u.SameTask t) : Listed w ds u := by
  rcases h with h | ⟨i, v, hi, hv⟩
  · rw [← hu.1, ← hu.2.1] at h
    exact .inl h
  · exact .inr ⟨i, v, hi, hv.trans hu.symm⟩

theorem Listed.step {w w' : World Text Event} {ds : Nat → Progress} {d : Progress}
    (h : Listed w ds u)
    (hp : ∀ p id, id ∈ w.redis.projectTasks p → id ∈ w'.redis.projectTasks p)
    (hi : ∀ t, ds i = .stored t → Listed w' (Function.update ds i d) t) :
    Listed w' (Function.update ds i d) u := by
  rcases h with h | ⟨j, t, hj, ht⟩
  · exact .inl (hp _ _ h)
  · by_cases hji : j = i
    · exact (hi t (hji ▸ hj)).same ht.symm
    · exact .inr ⟨j, t, by rw [Function.update_of_ne hji, hj], ht⟩

section
variable [TaskJson Text]

/-- The task whose `save` in process `i` is between its `SET NX` and its `SADD`. -/
def saves : Monitor (Cmd Text Event) Cmd.Answer (Option Task) where
  init := none
  cmd d c r :=
    match c, r with
    | .setNx _ x, .ok true => parse x
    | .sadd .., _ => none
    | _, _ => d
  abort d c _ :=
    match c with
    | .setNx .. | .sadd .. => none
    | _ => d

/-- The record that a `save` was about to make when it was cut. -/
def unsaved : SysLabel Text Event → Option String
  | .abort _ (.setNx id _) _ => some id
  | _ => none

/-- No `save` is cut between its `SET NX` and its `SADD`. -/
def listsWhatItSaves : Filter Text Event := fun tr w l w' =>
  (∀ id ∈ unsaved l, id ∈ w'.redis.tasks → id ∈ w.redis.tasks) ∧
    match l with
    | .abort i _ _ => ∀ t ∈ saves.read i tr, t.taskId ∈ w'.redis.projectTasks t.projectName
    | .halt => ∀ i, saves.read i tr = none
    | _ => True

/-- The index of a project has every task of it that can still be run, so that the look-ups by
project see the task. -/
structure IndexLaw (w : World Text Event) : Prop where
  member : ∀ id t, w.redis.record id = some t → t.isTerminal = false →
    id ∈ w.redis.projectTasks t.projectName
  listed : ∀ id t ts w', w.redis.record id = some t → t.isTerminal = false →
    ((TaskStore.listByProject t.projectName : Py Text Event Unit _) ()).Eval exec w
      (.ok ts, ()) w' → t ∈ ts
  found : ∀ id t o w', w.redis.record id = some t → t.status = .pending ∨ t.status = .running →
    ((TaskStore.findIncomplete t.projectName : Py Text Event Unit _) ()).Eval exec w
      (.ok o, ()) w' → o.isSome = true

theorem listByProject_eval {p : String} {w w' : World Text Event} {ts : List Task}
    (h : ((TaskStore.listByProject p : Py Text Event Unit _) ()).Eval exec w (.ok ts, ()) w')
    {id : String} {t : Task} (hr : w.redis.record id = some t) (hid : id ∈ w.redis.projectTasks p) :
    t ∈ ts := by
  obtain ⟨r, _, w₁, hc, h⟩ := eval_bind.1 h
  obtain ⟨r, ⟨⟨ids, rfl, hp⟩, rfl⟩, ho⟩ := eval_call.1 hc
  cases ho
  have hm : id ∈ ids := hp.mem_iff.2 hid
  dsimp only at h
  split at h
  · rename_i he
    rw [List.isEmpty_iff.1 he] at hm
    cases hm
  · obtain ⟨r, _, w₂, hc, h⟩ := eval_bind.1 h
    obtain ⟨r, ⟨rfl, rfl⟩, ho⟩ := eval_call.1 hc
    cases ho
    obtain ⟨ho, rfl⟩ := eval_pure.1 h
    cases ho
    exact List.mem_filterMap.2 ⟨_, List.mem_map_of_mem hm, hr⟩

theorem findIncomplete_eval {p : String} {w w' : World Text Event} {o : Option Task}
    (h : ((TaskStore.findIncomplete p : Py Text Event Unit _) ()).Eval exec w (.ok o, ()) w')
    {id : String} {t : Task} (hr : w.redis.record id = some t) (hid : id ∈ w.redis.projectTasks p)
    (ht : t.status = .pending ∨ t.status = .running) : o.isSome = true := by
  obtain ⟨r, _, w₁, hc, h⟩ := eval_bind.1 h
  cases r with
  | error e => cases h.1
  | ok ts =>
    obtain ⟨ho, rfl⟩ := eval_pure.1 h
    cases ho
    rw [List.find?_isSome]
    exact ⟨t, listByProject_eval hc hr hid, by rcases ht with ht | ht <;> simp [ht]⟩

theorem indexLaw_of_member {w : World Text Event}
    (h : ∀ id t, w.redis.record id = some t → id ∈ w.redis.projectTasks t.projectName) :
    IndexLaw w where
  member id t ht _ := h id t ht
  listed id t _ _ ht _ he := listByProject_eval he ht (h id t ht)
  found id t _ _ ht hs he := findIncomplete_eval he ht (h id t ht) hs

/-- What the monitor `saves` reads of a process. -/
def Progress.unlisted : Progress → Option Task
  | .stored t => some t
  | _ => none

theorem saves_move {S : Setup Event} {c : Cmd Text Event} {r : c.Answer} (hm : Move S d c r d') :
    saves.cmd d.unlisted c r = d'.unlisted ∧
      ((∃ e, r = .error e) → saves.abort d.unlisted c r = d'.unlisted) := by
  have hnone {P : Prop} {o : Option Task} (h : o = none) : none = o ∧ (P → none = o) :=
    ⟨h.symm, fun _ => h.symm⟩
  cases hm with
  | background hc =>
    cases c with
    | setNx _ _ | sadd _ _ => cases hc
    | _ => exact ⟨rfl, fun _ => rfl⟩
  | store hs hn =>
    rename_i t r
    rcases r with e | _ | _
    · exact ⟨rfl, fun _ => rfl⟩
    · exact ⟨rfl, fun _ => rfl⟩
    · exact ⟨parse_dump t, fun ⟨_, h⟩ => nomatch h⟩
  | acquire => exact hnone (granted_eq rfl rfl rfl)
  | index => exact hnone (settle_eq (entered_eq rfl rfl) fun _ => rfl)
  | reject _ _ | succeed _ _ | fail _ _ _ | abandon _ _ _ =>
    exact hnone (settle_eq (finished_eq rfl rfl) fun _ => rfl)
  | wait => exact hnone (settle_eq rfl fun _ => cutShort_eq fun _ => rfl)
  | clear => exact hnone (settle_eq rfl fun _ => unclear_eq (fun _ => rfl) rfl)
  | mark _ _ _ | register _ | run _ _ | start | halt _ _ | hangUp | retry _ _ _ _ =>
    exact hnone (settle_eq rfl fun _ => rfl)
  | _ => exact ⟨rfl, fun _ => rfl⟩

/-- Every copy of a task, stored, queued or in hand, is listed. -/
structure Members (tr : List (SysLabel Text Event)) (w : World Text Event) (ds : Nat → Progress) :
    Prop where
  stored : ∀ id t, w.redis.record id = some t → Listed w ds t
  queued : ∀ t ∈ w.redis.queued, Listed w ds t
  inHand : ∀ i t, (ds i).task = some t → Listed w ds t
  follows : (saves : Monitor (Cmd Text Event) Cmd.Answer _).Follows Progress.unlisted tr ds

def membership (Text : Type) [TaskJson Text] (S : Setup Event) :
    Assertion (orchestrator Text S spawn exit) Progress where
  ok := listsWhatItSaves
  inv := Members
  guar _ _ _ := True

namespace Members
variable {tr : List (SysLabel Text Event)} {w w' : World Text Event} {ds : Nat → Progress}
  {l : SysLabel Text Event} {i : Nat} {d : Progress}

/-- A step after which everything that was listed still is, and that brings no new copy of a task
into the store, the queue or the hands of process `i`. -/
theorem step (h : Members tr w ds) (hl : ∀ u, Listed w ds u → Listed w' (Function.update ds i d) u)
    (hs : ∀ id t, w'.redis.record id = some t → Listed w' (Function.update ds i d) t ∨
      w.redis.record id = some t)
    (hq : ∀ t ∈ w'.redis.queued, Listed w' (Function.update ds i d) t ∨ t ∈ w.redis.queued)
    (hd : ∀ t, d.task = some t → Listed w' (Function.update ds i d) t)
    (hf : (saves : Monitor (Cmd Text Event) Cmd.Answer _).Follows Progress.unlisted (l :: tr)
      (Function.update ds i d)) : Members (l :: tr) w' (Function.update ds i d) where
  stored id t ht := (hs id t ht).elim (fun h => h) fun ht => hl t (h.stored id t ht)
  queued t ht := (hq t ht).elim (fun h => h) fun ht => hl t (h.queued t ht)
  inHand j t ht := by
    by_cases hj : j = i
    · rw [hj, Function.update_self] at ht
      exact hd t ht
    · rw [Function.update_of_ne hj] at ht
      exact hl t (h.inHand j t ht)
  follows := hf

theorem move {S : Setup Event} {c : Cmd Text Event} {r : c.Answer} (h : Members tr w ds)
    (ha : (orchestrator Text S spawn exit).Answer i c r w w' l)
    (hok : listsWhatItSaves tr w l w') (hm : Move S (ds i) c r d) :
    Members (l :: tr) w' (Function.update ds i d) := by
  have hi (t : Task) (ht : ds i = .stored t) : Listed w' (Function.update ds i d) t := by
    rw [ht] at hm
    cases hm with
    | background hc => exact .inr ⟨i, t, Function.update_self .., .refl t⟩
    | index =>
      cases ha with
      | cmd hx =>
        obtain ⟨_, rfl⟩ := hx
        exact .inl (mem_projectTasks_sadd.2 (.inl ⟨rfl, rfl⟩))
      | abort hx =>
        apply Or.inl (hok.2 t _)
        rw [h.follows i, ht]
        rfl
  have hl (u : Task) (hu : Listed w ds u) : Listed w' (Function.update ds i d) u :=
    hu.step (fun _ _ => answer_projectTasks ha) hi
  have hf : (saves : Monitor (Cmd Text Event) Cmd.Answer _).Follows Progress.unlisted (l :: tr)
      (Function.update ds i d) := by
    obtain ⟨hcmd, habort⟩ := saves_move hm
    refine h.follows.answer ha (fun _ => hcmd) fun ⟨e, he, _⟩ => habort ⟨e, he⟩
  have hsame (hs : SameTasks w w')
      (hd : ∀ t, d.task = some t → Listed w' (Function.update ds i d) t) :
      Members (l :: tr) w' (Function.update ds i d) := by
    refine h.step hl (fun id t ht => .inr ?_) (fun t ht => .inr ?_) hd hf
    · rwa [hs.record] at ht
    · rwa [hs.queued] at ht
  have hwrite (u : Task) (hu : Listed w' (Function.update ds i d) u)
      (hw : w' = w.onRedis (·.set u.taskId (modelDumpJson u)))
      (hd : ∀ t, d.task = some t → t = u) : Members (l :: tr) w' (Function.update ds i d) := by
    subst hw
    refine h.step hl (fun id t ht => ?_) (fun t ht => .inr ht) (fun t ht => hd t ht ▸ hu) hf
    rw [World.onRedis, Redis.record_set_dump] at ht
    rcases update_eq_iff.1 ht with ⟨_, he⟩ | ⟨_, ht⟩
    · exact .inl (Option.some.inj he ▸ hu)
    · exact .inr ht
  have hown (t : Task) (ht : (ds i).task = some t) : Listed w' (Function.update ds i d) t :=
    hl t (h.inHand i t ht)
  rcases hm.carries with hc | hc
  · cases hc with
    | aside hq hd => exact hsame (answer_sameTasks hq ha) fun t ht => hown t (hd t ht)
    | write ht hu hd =>
      rename_i t u
      have hu := (hown t ht).same hu
      rcases set_effect ha with hw | ⟨_, hw⟩
      · exact hwrite u hu hw hd
      · exact hsame hw.sameTasks fun v hv => hd v hv ▸ hu
    | push ht hd =>
      rename_i t
      have hn (v : Task) (hv : d.task = some v) : Listed w' (Function.update ds i d) v := by
        rw [hd] at hv
        cases hv
      rcases lpush_effect ha with rfl | ⟨_, hw⟩
      · refine h.step hl (fun id v hv => .inr hv) (fun v hv => ?_) hn hf
        rw [World.onRedis, Redis.queued_lpush_dump] at hv
        rcases List.mem_cons.1 hv with rfl | hv
        · exact .inl (hown v ht)
        · exact .inr hv
      · exact hsame hw.sameTasks hn
  · generalize hdi : ds i = d₀ at hc
    cases hc with
    | read hx ht =>
      rename_i x t id
      refine hsame (answer_sameTasks rfl ha) fun u hu => ?_
      cases hu
      rcases answer_effect ha with ⟨a, ⟨he, _⟩, hr⟩ | ⟨⟨e, he⟩, _⟩
      · cases he
        have hr : w.redis.tasks.lookup id = some x := (hr _ rfl).symm
        refine hl t (h.stored id t ?_)
        rw [Redis.record, hr]
        exact hx
      · cases he
    | store hs hn =>
      rename_i t r
      rcases setNx_effect ha with ⟨hid, hw, hr⟩ | ⟨hr, hw⟩
      · rcases r with e | _ | _
        · cases ha with
          | cmd hx =>
            exact absurd (exec_error (c := .setNx t.taskId (modelDumpJson t)) hx) not_false
          | abort _ =>
            refine absurd (hok.1 t.taskId rfl ?_) hid
            rw [hw]
            exact AList.mem_insert _ |>.2 (.inl rfl)
        · exact absurd rfl hr
        · refine hwrite t (.inr ⟨i, t, Function.update_self .., .refl t⟩) hw fun u hu => ?_
          exact (Option.some.inj hu).symm
      · refine hsame hw.sameTasks fun u hu => ?_
        rcases r with e | _ | _
        · cases hu
        · cases hu
        · exact absurd rfl hr
    | pop hx =>
      rename_i x t
      rcases brpop_effect ha with ⟨y, hy, rfl, hr⟩ | ⟨hr, _⟩
      · cases hr _ rfl
        have hq := Redis.queued_getLast hy
        have ht : Listed (w.onRedis fun q => { q with queue := q.queue.dropLast })
            (Function.update ds i (.taken t)) t := by
          apply hl t (h.queued t _)
          rw [hq, hx]
          exact List.mem_append_right _ (List.mem_singleton_self t)
        refine h.step hl (fun id u hu => .inr hu) (fun u hu => .inr ?_) (fun u hu => ?_) hf
        · rw [hq]
          exact List.mem_append_left _ hu
        · cases hu
          exact ht
      · exact absurd rfl (hr x)
    | popNothing hr' =>
      rcases brpop_effect ha with ⟨y, hy, rfl, hr⟩ | ⟨_, hw⟩
      · refine h.step hl (fun id u hu => .inr hu) (fun u hu => .inr ?_) (fun _ hu => by cases hu) hf
        rw [Redis.queued_getLast hy]
        exact List.mem_append_left _ hu
      · exact hsame hw.sameTasks fun _ hu => by cases hu

/-- A step that nothing in Redis depends on. -/
theorem pass (h : Members tr w ds) (hs : SameTasks w w') (hi : SameIndex w w')
    (hf : (saves : Monitor (Cmd Text Event) Cmd.Answer _).Follows Progress.unlisted (l :: tr) ds) :
    Members (l :: tr) w' ds := by
  have hl (u : Task) (hu : Listed w ds u) : Listed w' ds u := by
    rwa [Listed, hi.projectTasks]
  refine ⟨fun id t ht => hl t ?_, fun t ht => hl t ?_, fun i t ht => hl t (h.inHand i t ht), hf⟩
  · rw [hs.record] at ht
    exact h.stored id t ht
  · rw [hs.queued] at ht
    exact h.queued t ht

/-- A process that has no task in hand comes or goes. -/
theorem change (h : Members tr w ds) (hw : w'.redis = w.redis) (hi : (ds i).task = none)
    (hd : d.task = none)
    (hf : (saves : Monitor (Cmd Text Event) Cmd.Answer _).Follows Progress.unlisted (l :: tr)
      (Function.update ds i d)) : Members (l :: tr) w' (Function.update ds i d) := by
  refine h.step (fun u hu => ?_) (fun id t ht => ?_) (fun t ht => ?_) (fun t ht => ?_) hf
  · refine hu.step (fun p id hid => by rwa [hw]) fun t ht => ?_
    rw [ht] at hi
    cases hi
  · rw [hw] at ht
    exact .inr ht
  · rw [hw] at ht
    exact .inr ht
  · rw [hd] at ht
    cases ht

end Members

theorem unlisted_entry (q : Kind) : q.entry.unlisted = none := by cases q <;> rfl

theorem membership_tracked {S : Setup Event} : Tracked (membership Text S) World.init where
  start := ⟨fun _ _ h => (nomatch h), fun _ h => (nomatch h), fun _ _ h => (nomatch h),
    fun _ => rfl⟩
  move tr w ds i c r w' l d hi ha hok hm := ⟨trivial, hi.move ha hok hm⟩
  spawn tr w ds i q w' hi hd hs _ :=
    ⟨trivial, hi.change (redis_spawn hs) (by rw [hd]; rfl) (task_entry q)
      (hi.follows.spawn i q (unlisted_entry q))⟩
  exit tr w ds i q b w' o hi hd he _ := by
    have ho : (o.elim Progress.gone Kind.entry).task = none ∧
        (o.elim Progress.gone Kind.entry).unlisted = none := by
      cases o with
      | none => exact ⟨rfl, rfl⟩
      | some q' => exact ⟨task_entry q', unlisted_entry q'⟩
    exact ⟨trivial, hi.change (redis_exit he) (by rw [hd]; exact task_entry q) ho.1
      (hi.follows.exit i q b ho.2)⟩
  env tr w ds e w' hi ht _ :=
    ⟨trivial, hi.pass (tick_quiet ht) (tick_sameIndex ht) fun i => hi.follows i⟩
  halt tr w ds w' hi hh hok := by
    cases hh
    have hn (u : Task) (hu : Listed w ds u) : u.taskId ∈ w.redis.projectTasks u.projectName := by
      rcases hu with hu | ⟨i, t, ht, _⟩
      · exact hu
      · have := hok.2 i
        rw [hi.follows i, ht] at this
        cases this
    exact ⟨trivial, fun id t ht => .inl (hn t (hi.stored id t ht)),
      fun t ht => .inl (hn t (hi.queued t ht)), fun _ _ h => (nomatch h), fun _ => rfl⟩

theorem index_law {S : Setup Event} {tr : List (SysLabel Text Event)} {s : SysConfig Text Event}
    (hr : Run (system Text S) listsWhatItSaves (.idle .init) tr s)
    (hq : ∀ i, saves.read i tr = none) : IndexLaw s.world := by
  have hA : Tracked (membership Text S) World.init := membership_tracked
  obtain ⟨ds, hi⟩ := hA.sound.inv hr
  apply indexLaw_of_member
  intro id t ht
  rcases hi.stored id t ht with h | ⟨i, u, hu, _⟩
  · have hkeyed := wellKeyed_of_run (hr.refine fun _ _ _ _ _ _ _ => trivial)
    rwa [hkeyed id t ht] at h
  · have := hq i
    rw [hi.follows i, hu] at this
    cases this

end

instance [TaskJson Text] (tr : List (SysLabel Text Event)) (w : World Text Event)
    (l : SysLabel Text Event) (w' : World Text Event) : Decidable (listsWhatItSaves tr w l w') :=
  have hid : Decidable (∀ id ∈ unsaved l, id ∈ w'.redis.tasks → id ∈ w.redis.tasks) :=
    inferInstance
  match l with
  | .abort i _ _ => @instDecidableAnd _ _ hid (inferInstanceAs (Decidable
      (∀ t ∈ saves.read i tr, t.taskId ∈ w'.redis.projectTasks t.projectName)))
  | .halt => @instDecidableAnd _ _ hid
      (decidable_of_iff _ (saves.forall_read_iff (P := (· = none)) rfl tr).symm)
  | .cmd .. | .spawn .. | .exit .. | .env _ => @instDecidableAnd _ _ hid (isTrue trivial)

/-- A crash between the `SET NX` and the `SADD` of a save, and the restart after it. -/
def cutSave : Schedule :=
  start ++ [.spawn 1 (.request demoRequest)] ++ go 1 6 ++ [.halt, .spawn 0 .recover] ++ go 0 3 ++
    [.exit 0]

/-- A crash while a worker waits for its stream, and the restart after it. -/
def cutStream : Schedule :=
  start ++ create 1 ++ [.spawn 2 .worker] ++ turnToStream 2 0 ++ [.halt, .spawn 0 .recover] ++
    go 0 5 ++ [.exit 0]

theorem index_law_stream : ∃ tr s, DemoRun listsWhatItSaves tr s ∧
    s.world.redis.projectTasks "p" = ["u"] ∧ IndexLaw s.world := by
  obtain ⟨tr, s, hr, hs⟩ := demoDriver.drive_observe listsWhatItSaves (.idle .init) cutStream
    (fun o => if ∀ i ∈ Monitor.actors o.1, saves.read i o.1 = none then
      some (o.2.world.redis.projectTasks "p") else none) (show _ = some ["u"] by decide)
  split at hs
  · rename_i hq
    have hq := (saves.forall_read_iff (P := (· = none)) rfl tr).2 hq
    exact ⟨tr, s, hr, Option.some.inj hs, index_law hr hq⟩
  · cases hs

theorem not_index_law : ¬∀ tr s, DemoRun anyway tr s → (∀ i, saves.read i tr = none) →
    IndexLaw s.world := by
  intro h
  obtain ⟨tr, s, hr, hs⟩ := demoDriver.drive_observe anyway (.idle .init) cutSave
    (fun o => if ∀ i ∈ Monitor.actors o.1, saves.read i o.1 = none then
      some ((o.2.world.redis.record "u").map fun t => (t.status, t.projectName),
        o.2.world.redis.projectTasks "p") else none)
    (show _ = some (some (.pending, "p"), []) by decide)
  split at hs
  · rename_i hq
    obtain ⟨h₁, h₂⟩ := Prod.mk.inj (Option.some.inj hs)
    obtain ⟨t, ht, he⟩ := Option.map_eq_some_iff.1 h₁
    obtain ⟨hst, hp⟩ := Prod.mk.inj he
    have hm := (h tr s hr ((saves.forall_read_iff (P := (· = none)) rfl tr).2 hq)).member "u" t ht
      (by rw [Task.isTerminal, hst]; rfl)
    rw [hp, h₂] at hm
    cases hm
  · cases hs

end Orchestrator
