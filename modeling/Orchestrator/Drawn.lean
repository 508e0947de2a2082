import Orchestrator.Collisions
import Orchestrator.Locks

namespace Orchestrator
open Concurrency Async
set_option autoImplicit true

theorem exec_usedIds {c : Cmd Text Event} {r : c.Answer} {w w' : World Text Event}
    (h : exec c r w w') : w.usedIds ⊆ w'.usedIds := by
  cases hc : c.lockFree with
  | true => exact (exec_lockFree hc h).2
  | false =>
    cases c with
    | acquireLock _ _ _ =>
      simp only [exec] at h
      split at h <;> obtain ⟨_, rfl⟩ := h <;> exact List.Subset.refl _
    | evalRelease _ _ =>
      obtain ⟨_, rfl⟩ := h
      exact List.Subset.refl _
    | _ => cases hc

/-- The id that a process has drawn last. -/
def lastDrawn : Monitor (Cmd Text Event) Cmd.Answer (Option String) where
  init := none
  cmd d c r :=
    match c, r with
    | .uuid4, .ok u => some u
    | _, _ => d
  abort d _ _ := d

/-- A new record goes under the id that was drawn last. -/
def StoresDrawn (d : Option String) (c : Cmd Text Event) (_ : c.Answer) : Prop :=
  match c with
  | .setNx id _ => d = some id
  | _ => True

/-- The commands that store nothing anew. -/
def Cmd.olden : Cmd Text Event → Prop
  | .setNx .. => False
  | _ => True

theorem storesDrawn_olden (d : Option String) (c : Cmd Text Event) (r : c.Answer) (hc : c.olden) :
    StoresDrawn d c r := by
  cases c with
  | setNx _ _ => exact absurd hc not_false
  | _ => trivial

section
variable [TaskJson Text] {S : Setup Event} {i : Nat}

theorem olden_of_work {c : Cmd Text Event} (h : c.work) : c.olden := by
  cases c with
  | setNx _ _ => exact absurd h.2 not_false
  | _ => trivial

theorem olden_of_recovery {c : Cmd Text Event} (h : c.recovery) : c.olden := by
  cases c with
  | setNx _ _ => exact absurd h.2 not_false
  | _ => trivial

theorem frames_undrawn (d : Option String) :
    (lastDrawn.demanding (system Text S) StoresDrawn).Frames i Cmd.lookup d := by
  apply Monitor.frames_demanding
  · intro c r hc
    cases c with
    | setNx _ _ => exact absurd hc not_false
    | _ => trivial
  · intro c r hc
    cases c with
    | uuid4 => exact absurd hc not_false
    | _ => rfl
  · exact fun _ _ _ => rfl

/-- A task is made under the id that is drawn for it. -/
theorem wp_newTask_drawn (body : TaskCreateRequest) {s : σ} {d : Option String} :
    Wp (lastDrawn.demanding (system Text S) StoresDrawn) i (newTask body)
      (fun t _ d => d = some t.taskId) (fun _ _ _ => True) s d := by
  apply Wp.bind
  apply Monitor.wp_demanded fun _ => trivial
  · intro r w w' _
    rcases r with e | u
    · trivial
    · apply Wp.bind
      apply Monitor.wp_demanded fun _ => trivial
      · intro r w w' _
        rcases r with e | createdAt
        · trivial
        · apply Wp.bind
          apply Monitor.wp_demanded fun _ => trivial
          · intro r w w' _
            rcases r with e | updatedAt
            · trivial
            · exact Wp.pure _ rfl
          · rintro r w w' ⟨e, rfl, -⟩
            trivial
      · rintro r w w' ⟨e, rfl, -⟩
        trivial
  · rintro r w w' ⟨e, rfl, -⟩
    trivial

/-- A task whose id is drawn is saved and queued. -/
theorem wp_store_drawn (t : Task) {s : σ} :
    Wp (lastDrawn.demanding (system Text S) StoresDrawn) i (do
        TaskStore.save S t
        TaskQueue.enqueue t
        return TaskResponse.fromTask t) (fun _ _ _ => True) (fun _ _ _ => True) s
      (some t.taskId) := by
  have hindex : Asks Cmd.olden (do
      ask (.sadd t.projectName t.taskId)
      if t.requirement ≠ "" then
        ask (.setDigest (digestKey S t.projectName t.requirement) t.taskId) :
      Py Text Event σ Unit) := by
    apply within_bind (asks trivial)
    intro _
    split
    · exact asks trivial
    · exact within_pure _
  have hqueue : Asks Cmd.olden (do
      TaskQueue.enqueue t
      return TaskResponse.fromTask t : Py Text Event σ _) :=
    within_bind (asks trivial) fun _ => within_pure _
  apply Wp.bind
  apply Wp.bind
  apply Monitor.wp_demanded fun _ => rfl
  · intro r w w' _
    rcases r with e | _ | _
    · trivial
    · trivial
    · apply Wp.mono (Monitor.wp_undemanded hindex storesDrawn_olden)
      · exact fun _ _ _ _ => Monitor.wp_undemanded hqueue storesDrawn_olden
      · exact fun _ _ _ _ => trivial
  · rintro r w w' ⟨e, rfl, -⟩
    trivial

theorem drawn_body (i : Nat) (q : Kind) :
    Safe (lastDrawn.demanding (system Text S) StoresDrawn) i (fun _ _ => True)
      ((system Text S).body q) none := by
  cases q with
  | recover =>
    apply Wp.start
    apply Wp.bind
    apply Wp.mono (Monitor.wp_undemanded asks_recoverStrandedTasks fun d c r hc =>
      storesDrawn_olden d c r (olden_of_recovery hc))
    · exact fun _ _ _ _ => Wp.pure _ trivial
    · exact fun _ _ _ _ => trivial
  | worker =>
    apply Wp.start
    apply Wp.bind
    apply Wp.mono (Monitor.wp_undemanded asks_turn fun d c r hc =>
      storesDrawn_olden d c r (olden_of_work hc))
    · exact fun _ _ _ _ => Wp.pure _ trivial
    · exact fun _ _ _ _ => trivial
  | request body =>
    apply Wp.start
    apply Wp.bind
    apply Wp.bind
    apply Wp.mono (Wp.of_within (asks_findExisting body) (frames_undrawn none))
    · intro o s d _
      cases o with
      | some t => exact Wp.pure _ (Wp.pure _ trivial)
      | none =>
        apply Wp.bind
        apply Wp.mono (wp_newTask_drawn body)
        · rintro t s d rfl
          exact Wp.mono (wp_store_drawn t) (fun _ _ _ _ => Wp.pure _ trivial) fun _ _ _ _ => trivial
        · exact fun _ _ _ _ => trivial
    · exact fun _ _ _ _ => trivial

/-- Every record can be read, and its id has been drawn. -/
structure Readable (tr : List (SysLabel Text Event)) (w : World Text Event) : Prop where
  reads : ∀ id ∈ w.redis.tasks, ∃ t, w.redis.record id = some t
  used : ∀ id ∈ w.redis.tasks, id ∈ w.usedIds
  drawn : ∀ i u, lastDrawn.read i tr = some u → u ∈ w.usedIds

theorem lastDrawn_answer {sp : Kind → World Text Event → World Text Event → Prop}
    {ex : Kind → Except Exc Returned → World Text Event → World Text Event → Option Kind → Prop}
    {c : Cmd Text Event} {r : c.Answer} {w w' : World Text Event} {l : SysLabel Text Event}
    {tr : List (SysLabel Text Event)} {j : Nat} {u : String}
    (ha : (orchestrator Text S sp ex).Answer i c r w w' l)
    (hj : lastDrawn.read j (l :: tr) = some u) :
    lastDrawn.read j tr = some u ∨ u ∈ w'.usedIds := by
  cases ha with
  | abort _ =>
    rw [Monitor.read] at hj
    split at hj <;> exact .inl hj
  | cmd hx =>
    rw [Monitor.read] at hj
    split at hj
    · cases c with
      | uuid4 =>
        obtain ⟨v, _, rfl, rfl⟩ := hx
        cases hj
        exact .inr List.mem_cons_self
      | _ => exact .inl hj
    · exact .inl hj

theorem answer_usedIds {sp : Kind → World Text Event → World Text Event → Prop}
    {ex : Kind → Except Exc Returned → World Text Event → World Text Event → Option Kind → Prop}
    {c : Cmd Text Event} {r : c.Answer} {w w' : World Text Event} {l : SysLabel Text Event}
    (ha : (orchestrator Text S sp ex).Answer i c r w w' l) : w.usedIds ⊆ w'.usedIds := by
  cases ha with
  | cmd h => exact exec_usedIds h
  | abort h =>
    obtain ⟨_, _, _, rfl | ⟨_, h⟩⟩ := h
    · exact (giveUp_lockFree c w).2
    · exact exec_usedIds h

namespace Readable
variable {tr : List (SysLabel Text Event)} {w w' : World Text Event} {l : SysLabel Text Event}

/-- A step that stores nothing. -/
theorem keep (h : Readable tr w) (ht : w'.redis.tasks = w.redis.tasks)
    (hu : w.usedIds ⊆ w'.usedIds)
    (hd : ∀ j u, lastDrawn.read j (l :: tr) = some u →
      lastDrawn.read j tr = some u ∨ u ∈ w'.usedIds) :
    Readable (l :: tr) w' := by
  constructor
  · rw [ht]
    intro id hid
    obtain ⟨t, hr⟩ := h.reads id hid
    exact ⟨t, by rw [Redis.record, ht, ← Redis.record, hr]⟩
  · rw [ht]
    exact fun id hid => hu (h.used id hid)
  · exact fun j u hj => (hd j u hj).elim (fun hj => hu (h.drawn j u hj)) fun hu => hu

/-- A step that stores the record of a task whose id has been drawn. -/
theorem store (h : Readable tr w) {t : Task} (ht : t.taskId ∈ w.usedIds)
    (hd : ∀ j u, lastDrawn.read j (l :: tr) = some u →
      lastDrawn.read j tr = some u ∨ u ∈ w.usedIds) :
    Readable (l :: tr) (w.onRedis (·.set t.taskId (modelDumpJson t))) := by
  constructor
  · intro id hid
    rw [World.onRedis, Redis.record_set_dump]
    by_cases he : id = t.taskId
    · rw [he, Function.update_self]
      exact ⟨t, rfl⟩
    · rw [Function.update_of_ne he]
      exact h.reads id ((AList.mem_insert _ |>.1 hid).resolve_left he)
  · intro id hid
    rcases AList.mem_insert _ |>.1 hid with rfl | hid
    · exact ht
    · exact h.used id hid
  · exact fun j u hj => (hd j u hj).elim (h.drawn j u) fun hu => hu

end Readable

def reading (Text : Type) [TaskJson Text] (S : Setup Event) :
    Assertion (orchestrator Text S spawn exit) Progress where
  ok tr w l w' := named tr w l w' ∧ lastDrawn.Meets StoresDrawn (l :: tr)
  inv tr w ds := Consistent S tr w ds ∧ Readable tr w
  guar _ _ _ := True

/-- A new record goes under a drawn id, and every other write is over a record that is there. -/
theorem Readable.answer {tr : List (SysLabel Text Event)} {w w' : World Text Event}
    {l : SysLabel Text Event} {ds : Nat → Progress} {c : Cmd Text Event} {r : c.Answer}
    {d : Progress} (h : Readable tr w) (hi : Consistent S tr w ds)
    (ha : (orchestrator Text S spawn exit).Answer i c r w w' l)
    (hok : lastDrawn.Meets StoresDrawn (l :: tr)) (hm : Move S (ds i) c r d) :
    Readable (l :: tr) w' := by
  have hd (j : Nat) (u : String) (hj : lastDrawn.read j (l :: tr) = some u) :
      lastDrawn.read j tr = some u ∨ u ∈ w'.usedIds := lastDrawn_answer ha hj
  have hkeep (ht : w'.redis.tasks = w.redis.tasks) : Readable (l :: tr) w' :=
    h.keep ht (answer_usedIds ha) hd
  rcases hm.carries with hc | hc
  · cases hc with
    | aside hq _ => exact hkeep (answer_sameTasks hq ha).tasks
    | push _ _ =>
      rcases lpush_effect ha with rfl | ⟨_, hu⟩
      · exact hkeep rfl
      · exact hkeep hu.sameTasks.tasks
    | write ht hu hv =>
      rename_i t u
      rcases set_effect ha with rfl | ⟨_, hw⟩
      · obtain ⟨v, hv, _⟩ := hi.inHand i t ht
        refine h.store ?_ hd
        rw [hu.1]
        exact h.used _ (AList.mem_keys.2 (Redis.mem_keys_of_record hv))
      · exact hkeep hw.sameTasks.tasks
  · generalize ds i = d₀ at hc
    cases hc with
    | read _ _ => exact hkeep (answer_sameTasks rfl ha).tasks
    | store hs hn =>
      rename_i t r
      rcases setNx_effect ha with ⟨_, rfl, _⟩ | ⟨_, hw⟩
      · refine h.store (h.drawn i _ ?_) hd
        cases ha <;> exact hok
      · exact hkeep hw.sameTasks.tasks
    | pop _ | popNothing _ =>
      rcases brpop_effect ha with ⟨_, _, rfl, _⟩ | ⟨_, hw⟩
      · exact hkeep rfl
      · exact hkeep hw.sameTasks.tasks

theorem reading_tracked : Tracked (reading Text S) World.init := by
  have hkeep {tr : List (SysLabel Text Event)} {w w' : World Text Event}
      {l : SysLabel Text Event} (h : Readable tr w) (hw : w'.redis = w.redis)
      (hu : w'.usedIds = w.usedIds)
      (hl : ∀ j, lastDrawn.read j (l :: tr) = none ∨
        lastDrawn.read j (l :: tr) = lastDrawn.read j tr) :
      Readable (l :: tr) w' := by
    refine h.keep (by rw [hw]) (hu ▸ List.Subset.refl _) fun j u hj => .inl ?_
    rcases hl j with hn | hs
    · cases hn.symm.trans hj
    · rw [← hs, hj]
  have hA : Tracked (consistency Text S) World.init := consistency_tracked
  constructor
  · refine ⟨hA.start, fun _ hid => ?_, fun _ hid => ?_, fun _ _ hd => ?_⟩
    · cases hid
    · cases hid
    · cases hd
  · intro tr w ds i c r w' l d hi ha hok hm
    exact ⟨trivial, (hA.move tr w ds i c r w' l d hi.1 ha hok.1 hm).2,
      hi.2.answer hi.1 ha hok.2 hm⟩
  · intro tr w ds i q w' hi hd hs hok
    refine ⟨trivial, (hA.spawn tr w ds i q w' hi.1 hd hs hok.1).2,
      hkeep hi.2 (redis_spawn hs) ?_ fun j => ?_⟩
    · cases q <;> obtain ⟨_, rfl⟩ := hs <;> rfl
    · rw [Monitor.read]
      split
      · exact .inl rfl
      · exact .inr rfl
  · intro tr w ds i q b w' o hi hd he hok
    refine ⟨trivial, (hA.exit tr w ds i q b w' o hi.1 hd he hok.1).2,
      hkeep hi.2 (redis_exit he) ?_ fun j => ?_⟩
    · cases q <;> cases b <;> obtain ⟨_, rfl⟩ := he <;> rfl
    · rw [Monitor.read]
      split
      · exact .inl rfl
      · exact .inr rfl
  · intro tr w ds e w' hi ht hok
    exact ⟨trivial, (hA.env tr w ds e w' hi.1 ht hok.1).2,
      hi.2.keep (tick_quiet ht).tasks (tick_usedIds ht ▸ List.Subset.refl _) fun _ _ hj => .inl hj⟩
  · intro tr w ds w' hi hh hok
    refine ⟨trivial, (hA.halt tr w ds w' hi.1 hh hok.1).2, ?_⟩
    cases hh
    exact hkeep hi.2 rfl rfl fun _ => .inl rfl

theorem readable_of_run {tr : List (SysLabel Text Event)} {s : SysConfig Text Event}
    (hr : Run (system Text S) anyway (.idle .init) tr s) : Readable tr s.world := by
  have hA : Tracked (reading Text S) World.init := reading_tracked
  have hok : Run (system Text S) (reading Text S).ok (.idle .init) tr s := by
    refine hr.refine fun tr s l s' hr hs _ => ?_
    refine ⟨naming_sound.guar hr hs trivial, ?_⟩
    exact (lastDrawn.meets_of_run drawn_body (.cons hr hs trivial)).1
  obtain ⟨_, h⟩ := hA.sound.inv hok
  exact h.2

end

end Orchestrator
