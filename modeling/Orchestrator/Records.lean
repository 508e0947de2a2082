import Orchestrator.Ledger
import Orchestrator.Effect

namespace Orchestrator
set_option autoImplicit true

namespace Task

/-- What no decision, transition or retry changes. -/
structure SameOrigin (t u : Task) : Prop where
  taskId : t.taskId = u.taskId
  projectName : t.projectName = u.projectName
  requirement : t.requirement = u.requirement
  workDir : t.workDir = u.workDir
  configJson : t.configJson = u.configJson
  createdAt : t.createdAt = u.createdAt

theorem SameOrigin.refl (t : Task) : SameOrigin t t := ⟨rfl, rfl, rfl, rfl, rfl, rfl⟩

theorem SameOrigin.symm (h : SameOrigin t u) : SameOrigin u t :=
  ⟨h.1.symm, h.2.symm, h.3.symm, h.4.symm, h.5.symm, h.6.symm⟩

theorem SameOrigin.trans (h : SameOrigin t u) (h' : SameOrigin u v) : SameOrigin t v :=
  ⟨h.1.trans h'.1, h.2.trans h'.2, h.3.trans h'.3, h.4.trans h'.4, h.5.trans h'.5, h.6.trans h'.6⟩

theorem sameOrigin_transition (t : Task) (now : Nat) (st : TaskStatus) (detail : String) :
    (t.transition now st detail).SameOrigin t := ⟨rfl, rfl, rfl, rfl, rfl, rfl⟩

/-- The scheduler has decided. Without a requirement there is nothing to do but to resume. -/
structure Decided (t : Task) : Prop where
  mode : t.mode ≠ .unknown
  resumes : t.requirement = "" → t.mode = .resume

theorem Decided.transition {t : Task} (h : t.Decided) (now : Nat) (st : TaskStatus)
    (detail : String) : (t.transition now st detail).Decided := ⟨h.mode, h.resumes⟩

theorem Decided.retry {t : Task} (h : t.Decided) (n : Nat) : Decided { t with retryCount := n } :=
  ⟨h.mode, h.resumes⟩

/-- The scheduler has not decided, so no stream was ever started. -/
structure Undecided (t : Task) : Prop where
  mode : t.mode = .unknown
  retryCount : t.retryCount = 0

/-- Why no stream could be started. -/
inductive Unstartable (S : Setup Event) (t : Task) : Prop where
  | engine (msg : String) (h : t.statusDetail = s!"engine initialisation failed: {msg}")
  | checkpoint (hr : t.requirement = "")
      (h : t.statusDetail = s!"requirement 为空，但 project={S.repr t.projectName} 不存在可恢复的 checkpoint，无法执行任何操作")

/-- The status, the mode, the retries and the detail of a record fit together. Each constructor is
a place of the source that writes records. -/
inductive Accounted (S : Setup Event) (t : Task) : Prop where
  | created (hs : t.status = .pending) (hu : t.Undecided) (hd : t.statusDetail = "")
  | started (hs : t.status = .running) (hm : t.Decided)
      (hd : t.statusDetail = s!"mode={t.mode.value}")
  | succeeded (hs : t.status = .success) (hm : t.Decided) (hd : t.statusDetail = "")
  | cancelled (hs : t.status = .interrupted) (hm : t.Decided)
      (hd : t.statusDetail = "worker cancelled")
  | lost (hs : t.status = .interrupted) (hm : t.Decided)
      (hd : t.statusDetail = "crash-recovery: worker lost during execution")
  | retried (hs : t.status = .interrupted) (hm : t.Decided) (hn : 0 < t.retryCount) (msg : String)
      (hd : t.statusDetail = s!"retry {t.retryCount}: {msg}")
  | rejected (hs : t.status = .failed) (hu : t.Undecided) (hd : t.Unstartable S)
  | failed (hs : t.status = .failed) (hm : t.Decided)

/-- A record that fits together, with no more retries than there are. -/
structure Coherent (S : Setup Event) (t : Task) : Prop where
  accounted : t.Accounted S
  retries : (t.retryCount : Int) ≤ max S.settings.maxRetries 0

section
variable {S : Setup Event} {t : Task}

theorem Accounted.decided (h : t.Accounted S) : t.Decided ∨ t.Undecided := by
  cases h with
  | created _ hu _ | rejected _ hu _ => exact .inr hu
  | started _ hm _ | succeeded _ hm _ | cancelled _ hm _ | lost _ hm _ | retried _ hm _ _ _
  | failed _ hm => exact .inl hm

theorem Accounted.of_running (h : t.Accounted S) (hs : t.status = .running) : t.Decided := by
  cases h with
  | started _ hm _ => exact hm
  | created hs' _ _ | rejected hs' _ _ | succeeded hs' _ _ | cancelled hs' _ _ | lost hs' _ _
  | retried hs' _ _ _ _ | failed hs' _ => cases hs.symm.trans hs'

theorem ready_of_not (hl : t.isTerminal = false) (hs : t.status ≠ .running) : Ready t := by
  unfold isTerminal TaskStatus.isTerminal at hl
  unfold Ready
  cases ht : t.status <;> simp_all

end

end Task

/-- What is known of a task in hand, whatever was done to it: it is one of those that were read. -/
structure Task.Held (S : Setup Event) (d : List Task) (t : Task) : Prop where
  known : ∃ u ∈ d, t.SameOrigin u
  retries : (t.retryCount : Int) ≤ max S.settings.maxRetries 0
  decided : t.Decided ∨ t.Undecided

namespace Task.Held
variable {S : Setup Event} {d : List Task} {t u : Task}

theorem same (h : t.Held S d) (hu : u.SameOrigin t) (hm : u.mode = t.mode)
    (hn : u.retryCount = t.retryCount) : u.Held S d where
  known := by
    obtain ⟨v, hv, ho⟩ := h.known
    exact ⟨v, hv, hu.trans ho⟩
  retries := by
    rw [hn]
    exact h.retries
  decided := by
    rcases h.decided with h | h
    · exact .inl ⟨hm ▸ h.mode, fun hr => hm.trans (h.resumes (hu.requirement.symm.trans hr))⟩
    · exact .inr ⟨hm.trans h.mode, hn.trans h.retryCount⟩

theorem transition (h : t.Held S d) (now : Nat) (st : TaskStatus) (detail : String) :
    (t.transition now st detail).Held S d :=
  h.same (t.sameOrigin_transition now st detail) rfl rfl

theorem decide (h : t.Held S d) {mode : TaskMode} (hm : mode ≠ .unknown)
    (hr : t.requirement = "" → mode = .resume) (now : Nat) :
    Task.Held S d (Task.touch { t with mode := mode } now) where
  known := by
    obtain ⟨u, hu, ho⟩ := h.known
    exact ⟨u, hu, ho.1, ho.2, ho.3, ho.4, ho.5, ho.6⟩
  retries := h.retries
  decided := .inl ⟨hm, hr⟩

theorem retry (h : t.Held S d) (hm : t.Decided)
    (hn : (t.retryCount : Int) < S.settings.maxRetries) :
    Task.Held S d { t with retryCount := t.retryCount + 1 } where
  known := by
    obtain ⟨u, hu, ho⟩ := h.known
    exact ⟨u, hu, ho.1, ho.2, ho.3, ho.4, ho.5, ho.6⟩
  retries := by
    dsimp only
    omega
  decided := .inl (hm.retry _)

end Task.Held

section
variable [TaskJson Text]

namespace Redis
variable {S : Setup Event} {r r' : Redis Text} {t u : Task} {id : String}

/-- The record of the task is there, with the same origin. -/
def Knows (r : Redis Text) (t : Task) : Prop := ∃ u, r.record t.taskId = some u ∧ u.SameOrigin t

/-- Every record is still there, with the same origin. -/
def Remembers (r r' : Redis Text) : Prop :=
  ∀ id u, r.record id = some u → ∃ u', r'.record id = some u' ∧ u'.SameOrigin u

/-- Records fit together and lie under their own ids, only tasks that wait are queued, and the queue
and the indices lead to records that belong there. -/
structure Coherent (S : Setup Event) (r : Redis Text) : Prop where
  stored : ∀ id x, r.tasks.lookup id = some x →
    ∃ t, x = modelDumpJson t ∧ t.taskId = id ∧ t.Coherent S
  queued : ∀ x ∈ r.queue, ∃ t, x = modelDumpJson t ∧ t.Coherent S ∧ Ready t ∧ r.Knows t
  listed : ∀ p, ∀ id ∈ r.projectTasks p, ∃ t, r.record id = some t ∧ t.projectName = p
  digested : ∀ h id, r.digests h = some id →
    ∃ t, r.record id = some t ∧ digestKey S t.projectName t.requirement = h

theorem Remembers.refl (r : Redis Text) : r.Remembers r := fun _ u hu => ⟨u, hu, .refl u⟩

theorem Remembers.trans {r'' : Redis Text} (h : r.Remembers r') (h' : r'.Remembers r'') :
    r.Remembers r'' := by
  intro id u hu
  obtain ⟨v, hv, huv⟩ := h id u hu
  obtain ⟨v', hv', hvv⟩ := h' id v hv
  exact ⟨v', hv', hvv.trans huv⟩

theorem remembers_of_tasks (h : r'.tasks = r.tasks) : r.Remembers r' := by
  intro id u hu
  refine ⟨u, ?_, .refl u⟩
  rwa [record, h]

theorem Knows.step (h : r.Knows t) (hr : r.Remembers r') : r'.Knows t := by
  obtain ⟨u, hu, ho⟩ := h
  obtain ⟨u', hu', ho'⟩ := hr _ u hu
  exact ⟨u', hu', ho'.trans ho⟩

/-- Two tasks with one id that are both known have one origin. -/
theorem Knows.sameOrigin (h : r.Knows t) (h' : r.Knows u) (hid : t.taskId = u.taskId) :
    t.SameOrigin u := by
  obtain ⟨v, hv, ht⟩ := h
  obtain ⟨v', hv', hu⟩ := h'
  rw [hid, hv'] at hv
  obtain rfl := Option.some.inj hv
  exact ht.symm.trans hu

theorem Knows.of_sameOrigin (h : r.Knows u) (ht : t.SameOrigin u) : r.Knows t := by
  obtain ⟨v, hv, hu⟩ := h
  exact ⟨v, by rwa [ht.taskId], hu.trans ht.symm⟩

theorem knows_set (r : Redis Text) (t : Task) :
    (r.set t.taskId (modelDumpJson t)).Knows t :=
  ⟨t, by rw [record_set_dump, Function.update_self], .refl t⟩

theorem remembers_set (h : ∀ u, r.record t.taskId = some u → t.SameOrigin u) :
    r.Remembers (r.set t.taskId (modelDumpJson t)) := by
  intro id u hu
  rw [record_set_dump]
  by_cases hid : id = t.taskId
  · subst hid
    exact ⟨t, Function.update_self .., h u hu⟩
  · exact ⟨u, by rwa [Function.update_of_ne hid], .refl u⟩

namespace Coherent

theorem record (h : r.Coherent S) (hr : r.record id = some t) :
    r.tasks.lookup id = some (modelDumpJson t) ∧ t.taskId = id ∧ t.Coherent S := by
  obtain ⟨x, hx, hp⟩ := Option.bind_eq_some_iff.1 hr
  obtain ⟨u, rfl, hid, hu⟩ := h.stored id x hx
  rw [parse_dump] at hp
  obtain rfl := Option.some.inj hp
  exact ⟨hx, hid, hu⟩

theorem knows (h : r.Coherent S) (hr : r.record id = some t) : r.Knows t :=
  ⟨t, by rwa [(h.record hr).2.1], .refl t⟩

/-- A text in the store is that of a task that is known. -/
theorem lookup {x : Text} (h : r.Coherent S) (hx : r.tasks.lookup id = some x) :
    ∃ t, x = modelDumpJson t ∧ t.taskId = id ∧ t.Coherent S ∧ r.Knows t := by
  obtain ⟨t, rfl, hid, ht⟩ := h.stored id x hx
  refine ⟨t, rfl, hid, ht, t, ?_, .refl t⟩
  rw [Redis.record, hid, hx]
  exact parse_dump t

/-- A step that forgets nothing, and after which what is new fits as well. -/
theorem step (h : r.Coherent S) (hr : r.Remembers r')
    (hs : ∀ id x, r'.tasks.lookup id = some x → r.tasks.lookup id = some x ∨
      ∃ t, x = modelDumpJson t ∧ t.taskId = id ∧ t.Coherent S)
    (hq : ∀ x ∈ r'.queue, x ∈ r.queue ∨
      ∃ t, x = modelDumpJson t ∧ t.Coherent S ∧ Ready t ∧ r'.Knows t)
    (hl : ∀ p, ∀ id ∈ r'.projectTasks p, id ∈ r.projectTasks p ∨
      ∃ t, r'.record id = some t ∧ t.projectName = p)
    (hd : ∀ k id, r'.digests k = some id → r.digests k = some id ∨
      ∃ t, r'.record id = some t ∧ digestKey S t.projectName t.requirement = k) :
    r'.Coherent S where
  stored id x hx := (hs id x hx).elim (h.stored id x) fun h => h
  queued x hx := by
    rcases hq x hx with hx | hx
    · obtain ⟨t, hx, ht, hready, hk⟩ := h.queued x hx
      exact ⟨t, hx, ht, hready, hk.step hr⟩
    · exact hx
  listed p id hid := by
    rcases hl p id hid with hid | hid
    · obtain ⟨t, ht, hp⟩ := h.listed p id hid
      obtain ⟨t', ht', ho⟩ := hr id t ht
      exact ⟨t', ht', ho.projectName.trans hp⟩
    · exact hid
  digested k id hid := by
    rcases hd k id hid with hid | hid
    · obtain ⟨t, ht, hk⟩ := h.digested k id hid
      obtain ⟨t', ht', ho⟩ := hr id t ht
      exact ⟨t', ht', by rw [ho.projectName, ho.requirement, hk]⟩
    · exact hid

theorem same (h : r.Coherent S) (ht : r'.tasks = r.tasks) (hq : r'.queue = r.queue)
    (hp : r'.projectTasks = r.projectTasks) (hd : r'.digests = r.digests) : r'.Coherent S := by
  apply h.step (remembers_of_tasks ht)
  · exact fun id x hx => .inl (by rwa [ht] at hx)
  · exact fun x hx => .inl (by rwa [hq] at hx)
  · exact fun p id hid => .inl (by rwa [hp] at hid)
  · exact fun k id hid => .inl (by rwa [hd] at hid)

theorem set (h : r.Coherent S) (ht : t.Coherent S)
    (ho : ∀ u, r.record t.taskId = some u → t.SameOrigin u) :
    (r.set t.taskId (modelDumpJson t)).Coherent S := by
  apply h.step (remembers_set ho)
  · intro id x hx
    by_cases hid : id = t.taskId
    · subst hid
      rw [Redis.set, AList.lookup_insert] at hx
      exact .inr ⟨t, (Option.some.inj hx).symm, rfl, ht⟩
    · rw [Redis.set, AList.lookup_insert_ne hid] at hx
      exact .inl hx
  · exact fun x hx => .inl hx
  · exact fun p id hid => .inl hid
  · exact fun k id hid => .inl hid

theorem lpush (h : r.Coherent S) (ht : t.Coherent S) (hready : Ready t) (hk : r.Knows t) :
    (r.lpush (modelDumpJson t)).Coherent S := by
  have hr : r.Remembers (r.lpush (modelDumpJson t)) := remembers_of_tasks rfl
  apply h.step hr
  · exact fun id x hx => .inl hx
  · intro x hx
    rcases List.mem_cons.1 hx with rfl | hx
    · exact .inr ⟨t, rfl, ht, hready, hk⟩
    · exact .inl hx
  · exact fun p id hid => .inl hid
  · exact fun k id hid => .inl hid

theorem sadd (h : r.Coherent S) (hk : r.Knows t) :
    (r.sadd t.projectName t.taskId).Coherent S := by
  have hr : r.Remembers (r.sadd t.projectName t.taskId) := remembers_of_tasks rfl
  apply h.step hr
  · exact fun id x hx => .inl hx
  · exact fun x hx => .inl hx
  · intro p id hid
    rcases mem_projectTasks_sadd.1 hid with ⟨rfl, rfl⟩ | hid
    · obtain ⟨u, hu, ho⟩ := hk
      exact .inr ⟨u, hu, ho.projectName⟩
    · exact .inl hid
  · exact fun k id hid => .inl hid

theorem setDigest (h : r.Coherent S) {k : String} {o : Option String}
    (ho : ∀ id, o = some id → ∃ t, r.record id = some t ∧
      digestKey S t.projectName t.requirement = k) : (r.setDigest k o).Coherent S := by
  have hr : r.Remembers (r.setDigest k o) := remembers_of_tasks rfl
  apply h.step hr
  · exact fun id x hx => .inl hx
  · exact fun x hx => .inl hx
  · exact fun p id hid => .inl hid
  · intro k' id hid
    have hid : Function.update r.digests k o k' = some id := hid
    by_cases hk : k' = k
    · subst hk
      rw [Function.update_self] at hid
      exact .inr (ho id hid)
    · rw [Function.update_of_ne hk] at hid
      exact .inl hid

theorem pop (h : r.Coherent S) :
    ({ r with queue := r.queue.dropLast } : Redis Text).Coherent S := by
  have hr : r.Remembers { r with queue := r.queue.dropLast } := remembers_of_tasks rfl
  apply h.step hr
  · exact fun id x hx => .inl hx
  · exact fun x hx => .inl (List.dropLast_subset _ hx)
  · exact fun p id hid => .inl hid
  · exact fun k id hid => .inl hid

end Coherent

theorem coherent_empty : (Redis.empty : Redis Text).Coherent S where
  stored id x hx := by cases hx
  queued x hx := by cases hx
  listed p id hid := by cases hid
  digested k id hid := by cases hid

end Redis

end

end Orchestrator
