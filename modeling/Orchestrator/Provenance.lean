import Orchestrator.Coherence
import Orchestrator.Drawn

namespace Orchestrator
open Concurrency Async Progress
set_option autoImplicit true

/-- The task is what the request asks for. -/
structure Task.AskedBy (t : Task) (body : TaskCreateRequest) : Prop where
  projectName : t.projectName = body.projectName
  requirement : t.requirement = body.requirement
  workDir : t.workDir = body.workDir.getD ""
  configJson : t.configJson = body.configJson.getD ""

theorem Task.AskedBy.same {t u : Task} {body : TaskCreateRequest} (h : t.AskedBy body)
    (hu : u.SameOrigin t) : u.AskedBy body where
  projectName := hu.projectName.trans h.projectName
  requirement := hu.requirement.trans h.requirement
  workDir := hu.workDir.trans h.workDir
  configJson := hu.configJson.trans h.configJson

def Kind.asked : Kind → Option TaskCreateRequest
  | .request body => some body
  | _ => none

/-- The process that tries to store a new record with this label, and the record. -/
def creates : SysLabel Text Event → Option (Nat × String × Text)
  | .cmd i (.setNx id x) _ | .abort i (.setNx id x) _ => some (i, id, x)
  | _ => none

/-- The requests under way that have not tried to store a task yet. -/
def pending : List (SysLabel Text Event) → List (Nat × TaskCreateRequest)
  | [] => []
  | .spawn i (.request body) :: tr => (i, body) :: pending tr
  | .cmd i (.setNx ..) _ :: tr | .abort i (.setNx ..) _ :: tr | .exit i _ _ :: tr =>
    (pending tr).filter (·.1 ≠ i)
  | .halt :: _ => []
  | _ :: tr => pending tr

/-- How many requests there have been. -/
def posts : List (SysLabel Text Event) → Nat
  | [] => 0
  | .spawn _ (.request _) :: tr => posts tr + 1
  | _ :: tr => posts tr

section
variable {tr : List (SysLabel Text Event)} {l : SysLabel Text Event} {i : Nat}
  {body : TaskCreateRequest}

theorem pending_olden {c : Cmd Text Event} (hc : c.olden) (r : c.Answer) :
    pending (.cmd i c r :: tr) = pending tr ∧ pending (.abort i c r :: tr) = pending tr := by
  cases c with
  | setNx _ _ => exact absurd hc not_false
  | _ => exact ⟨rfl, rfl⟩

theorem creates_olden {c : Cmd Text Event} (hc : c.olden) (r : c.Answer) :
    creates (.cmd i c r) = none ∧ creates (.abort i c r) = none := by
  cases c with
  | setNx _ _ => exact absurd hc not_false
  | _ => exact ⟨rfl, rfl⟩

theorem olden_of_lookup {c : Cmd Text Event} (hc : c.lookup) : c.olden := by
  cases c with
  | setNx _ _ => exact absurd hc not_false
  | _ => trivial

/-- A request that tries to store a task is not pending any more. -/
theorem pending_creates {id : String} {x : Text} (h : creates l = some (i, id, x)) :
    pending (l :: tr) = (pending tr).filter (·.1 ≠ i) := by
  cases l with
  | cmd j c r | abort j c r =>
    cases c with
    | setNx _ _ =>
      cases h
      rfl
    | _ => cases h
  | _ => cases h

theorem length_pending_le (l : SysLabel Text Event) (tr : List (SysLabel Text Event)) :
    (pending (l :: tr)).length + posts tr ≤ (pending tr).length + posts (l :: tr) := by
  have hfilter (j : Nat) : ((pending tr).filter (·.1 ≠ j)).length + posts tr ≤
      (pending tr).length + posts tr := Nat.add_le_add_right (List.length_filter_le _ _) _
  cases l with
  | cmd j c _ | abort j c _ =>
    cases c with
    | setNx _ _ => exact hfilter j
    | _ => exact Nat.le_refl _
  | spawn j q =>
    cases q with
    | request body =>
      rw [pending, posts, List.length_cons]
      omega
    | _ => exact Nat.le_refl _
  | exit j _ _ => exact hfilter j
  | env _ => exact Nat.le_refl _
  | halt => exact Nat.add_le_add_right (Nat.zero_le _) _

theorem spawn_of_pending (h : (i, body) ∈ pending tr) : .spawn i (.request body) ∈ tr := by
  induction tr with
  | nil => cases h
  | cons l tr ih =>
    have hrest (h : (i, body) ∈ pending tr) : .spawn i (.request body) ∈ l :: tr :=
      List.mem_cons_of_mem _ (ih h)
    cases l with
    | cmd j c _ | abort j c _ =>
      cases c with
      | setNx _ _ => exact hrest (List.mem_of_mem_filter h)
      | _ => exact hrest h
    | spawn j q =>
      cases q with
      | request body' =>
        rcases List.mem_cons.1 h with h | h
        · cases h
          exact List.mem_cons_self
        · exact hrest h
      | _ => exact hrest h
    | exit j _ _ => exact hrest (List.mem_of_mem_filter h)
    | env _ => exact hrest h
    | halt => cases h

end

/-- A step after which there is no record that was not there, but for one that it stores anew. -/
def Storing (w : World Text Event) (l : SysLabel Text Event) (w' : World Text Event) : Prop :=
  ∀ id ∈ w'.redis.tasks, id ∈ w.redis.tasks ∨
    ∃ i x, creates l = some (i, id, x) ∧ w'.redis.tasks.lookup id = some x

theorem storing_of_tasks {w w' : World Text Event} {l : SysLabel Text Event}
    (h : w'.redis.tasks = w.redis.tasks) : Storing w l w' := by
  intro id hid
  rw [h] at hid
  exact .inl hid

/-- The task is what a request of the run asks for. -/
def Posted (tr : List (SysLabel Text Event)) (t : Task) : Prop :=
  ∃ i body, .spawn i (.request body) ∈ tr ∧ t.AskedBy body

theorem Posted.same {tr : List (SysLabel Text Event)} {t u : Task} (h : Posted tr t)
    (hu : u.SameOrigin t) : Posted tr u := by
  obtain ⟨i, body, hl, ht⟩ := h
  exact ⟨i, body, hl, ht.same hu⟩

theorem Posted.cons {tr : List (SysLabel Text Event)} {t : Task} (l : SysLabel Text Event)
    (h : Posted tr t) : Posted (l :: tr) t := by
  obtain ⟨i, body, hl, ht⟩ := h
  exact ⟨i, body, List.mem_cons_of_mem _ hl, ht⟩

variable [TaskJson Text]

/-- A new record is that of a task as the request of its process asks for it. -/
def Founds : List (SysLabel Text Event) → Prop
  | [] => True
  | l :: tr => ∀ i id x, creates l = some (i, id, x) → ∃ body t, (i, body) ∈ pending tr ∧
      t.taskId = id ∧ x = modelDumpJson t ∧ t.AskedBy body

/-- The ghost value of a process is the request for which it may still store a task. -/
def founding (Text : Type) [TaskJson Text] (S : Setup Event)
    (sp : Kind → World Text Event → World Text Event → Prop)
    (ex : Kind → Except Exc Returned → World Text Event → World Text Event → Option Kind → Prop) :
    Assertion (orchestrator Text S sp ex) (Option TaskCreateRequest) where
  ok := anyway
  inv tr _ ds := (∀ i body, ds i = some body → (i, body) ∈ pending tr) ∧ Founds tr
  guar _ _ _ := True

namespace Founding
variable {S : Setup Event} {sp : Kind → World Text Event → World Text Event → Prop}
  {ex : Kind → Except Exc Returned → World Text Event → World Text Event → Option Kind → Prop}
  {i : Nat} {d : Option TaskCreateRequest} {body : TaskCreateRequest} {t : Task}

theorem frames_olden : (founding Text S sp ex).Frames i Cmd.olden d := by
  rintro c hc tr w ds l r w' ⟨hp, -⟩ rfl ha -
  have hl : pending (l :: tr) = pending tr ∧ creates l = none := by
    cases ha with
    | cmd _ => exact ⟨(pending_olden hc r).1, (creates_olden hc r).1⟩
    | abort _ => exact ⟨(pending_olden hc r).2, (creates_olden hc r).2⟩
  refine ⟨trivial, ?_, ?_⟩
  · rw [hl.1]
    exact hp
  · intro j id x hx
    cases hl.2.symm.trans hx

/-- Commands that store nothing anew. -/
theorem wp_olden {p : Py Text Event σ α} (hp : Asks Cmd.olden p)
    {Q : α → σ → Option TaskCreateRequest → Prop} {X : Exc → σ → Option TaskCreateRequest → Prop}
    (hQ : ∀ a s, Q a s d) (hX : ∀ e s, X e s d) : Wp (founding Text S sp ex) i p Q X s d := by
  apply Wp.mono (Wp.of_within hp frames_olden)
  · rintro a s _ rfl
    exact hQ a s
  · rintro e s _ rfl
    exact hX e s

theorem wp_ask {c : Cmd Text Event} (hc : c.olden)
    {Q : c.Reply → σ → Option TaskCreateRequest → Prop}
    {X : Exc → σ → Option TaskCreateRequest → Prop} (hQ : ∀ a s, Q a s d) (hX : ∀ e s, X e s d)
    {s : σ} : Wp (founding Text S sp ex) i (ask c) Q X s d := wp_olden (asks hc) hQ hX

theorem wp_newTask {s : σ} : Wp (founding Text S sp ex) i (newTask body)
    (fun t _ d' => d' = d ∧ t.AskedBy body) (fun _ _ _ => True) s d := by
  apply Wp.bind
  apply wp_ask
  · trivial
  · intro taskId s
    apply Wp.bind
    apply wp_ask
    · trivial
    · intro createdAt s
      apply Wp.bind
      apply wp_ask
      · trivial
      · exact fun updatedAt s => Wp.pure _ ⟨rfl, rfl, rfl, rfl, rfl⟩
      · exact fun _ _ => trivial
    · exact fun _ _ => trivial
  · exact fun _ _ => trivial

/-- The one record that a request stores. -/
theorem wp_save (ht : t.AskedBy body) {s : σ} : Wp (founding Text S sp ex) i (TaskStore.save S t)
    (fun _ _ d' => d' = none) (fun _ _ _ => True) s (some body) := by
  have hindex {s : σ} : Wp (founding Text S sp ex) i (do
      ask (.sadd t.projectName t.taskId)
      if t.requirement ≠ "" then
        ask (.setDigest (digestKey S t.projectName t.requirement) t.taskId) : Py Text Event σ Unit)
      (fun _ _ d' => d' = none) (fun _ _ _ => True) s none := by
    apply wp_olden
    · apply within_bind (asks trivial)
      intro _
      split
      · exact asks trivial
      · exact within_pure _
    · exact fun _ _ => rfl
    · exact fun _ _ => trivial
  apply Wp.bind
  apply Wp.call
  rintro tr w ds l r w' ⟨hp, -⟩ hd ha -
  have hl : creates l = some (i, t.taskId, modelDumpJson t) := by
    cases ha <;> rfl
  refine ⟨trivial, none, ⟨fun j body' hj => ?_, fun j id x hx => ?_⟩, ?_⟩
  · by_cases hji : j = i
    · rw [hji, Function.update_self] at hj
      cases hj
    · rw [Function.update_of_ne hji] at hj
      rw [pending_creates hl]
      exact List.mem_filter.2 ⟨hp j body' hj, decide_eq_true hji⟩
  · cases hl.symm.trans hx
    exact ⟨body, t, hp i body hd, rfl, rfl, ht⟩
  · rcases r with e | _ | _
    · trivial
    · exact Wp.bind (Wp.raise _ trivial)
    · exact hindex

theorem safe_body (q : Kind) : Safe (founding Text S sp ex) i (fun _ _ => True)
    ((orchestrator Text S sp ex).body q) q.asked := by
  apply Wp.start
  cases q with
  | recover =>
    apply wp_olden
    · exact within_bind (asks_recoverStrandedTasks.mono fun _ => olden_of_recovery)
        fun _ => within_pure _
    · exact fun _ _ => trivial
    · exact fun _ _ => trivial
  | worker =>
    apply wp_olden
    · exact within_bind (asks_turn.mono fun _ => olden_of_work) fun _ => within_pure _
    · exact fun _ _ => trivial
    · exact fun _ _ => trivial
  | request body =>
    apply Wp.bind
    apply Wp.bind
    apply wp_olden ((asks_findExisting body).mono fun _ => olden_of_lookup)
    · intro o s
      cases o with
      | some t => exact Wp.pure _ (Wp.pure _ trivial)
      | none =>
        apply Wp.bind
        apply Wp.mono wp_newTask
        · rintro t s _ ⟨rfl, ht⟩
          apply Wp.bind
          apply Wp.mono (wp_save ht)
          · rintro _ s _ rfl
            apply Wp.bind
            apply wp_ask
            · trivial
            · exact fun _ _ => Wp.pure _ (Wp.pure _ trivial)
            · exact fun _ _ => trivial
          · exact fun _ _ _ h => h
        · exact fun _ _ _ h => h
    · exact fun _ _ => trivial

/-- Any rule for the start and the end of processes by which no request starts over. -/
theorem sound {w₀ : World Text Event}
    (hex : ∀ q b w w' o, ex q b w w' o → ∀ q' ∈ o, Kind.asked q' = none) :
    (founding Text S sp ex).Sound none (fun _ _ _ => True) w₀ := by
  constructor
  · exact ⟨nofun, trivial⟩
  · rintro tr w ds i q w' ⟨hp, -⟩ - - -
    refine ⟨trivial, q.asked, ⟨fun j body hj => ?_, nofun⟩, safe_body q⟩
    by_cases hji : j = i
    · rw [hji, Function.update_self] at hj
      cases q with
      | request body' =>
        cases hj
        rw [hji]
        exact List.mem_cons_self
      | _ => cases hj
    · rw [Function.update_of_ne hji] at hj
      cases q with
      | request body' => exact List.mem_cons_of_mem _ (hp j body hj)
      | _ => exact hp j body hj
  · rintro tr w ds i q b w' o ⟨hp, -⟩ - he -
    have hinv : (∀ j body, Function.update ds i none j = some body →
        (j, body) ∈ pending (.exit i q b :: tr)) ∧ Founds (.exit i q b :: tr) := by
      refine ⟨fun j body hj => ?_, nofun⟩
      by_cases hji : j = i
      · rw [hji, Function.update_self] at hj
        cases hj
      · rw [Function.update_of_ne hji] at hj
        exact List.mem_filter.2 ⟨hp j body hj, decide_eq_true hji⟩
    refine ⟨trivial, ?_⟩
    cases o with
    | none => exact hinv
    | some q' =>
      refine ⟨none, hinv, ?_⟩
      have hq : q'.asked = none := hex q b w w' _ he q' rfl
      rw [← hq]
      exact safe_body q'
  · rintro tr w ds e w' ⟨hp, -⟩ - -
    exact ⟨trivial, hp, nofun⟩
  · rintro tr w ds w' - - -
    exact ⟨trivial, nofun, nofun⟩

end Founding

theorem Redis.Knows.mem {r : Redis Text} {t : Task} (h : r.Knows t) : t.taskId ∈ r.tasks := by
  obtain ⟨u, hu, -⟩ := h
  exact AList.mem_keys.2 (Redis.mem_keys_of_record hu)

/-- A task in hand is stored. -/
def storing (Text : Type) [TaskJson Text] (S : Setup Event)
    (sp : Kind → World Text Event → World Text Event → Prop)
    (ex : Kind → Except Exc Returned → World Text Event → World Text Event → Option Kind → Prop) :
    Assertion (orchestrator Text S sp ex) Progress where
  ok _ w _ _ := w.redis.Coherent S
  inv _ w ds := ∀ i t, (ds i).task = some t → t.taskId ∈ w.redis.tasks
  guar := Storing

section
variable {S : Setup Event} {sp : Kind → World Text Event → World Text Event → Prop}
  {ex : Kind → Except Exc Returned → World Text Event → World Text Event → Option Kind → Prop}
  {i : Nat} {d d' : Progress} {w w' : World Text Event} {l : SysLabel Text Event}

/-- What a move does to the records. -/
theorem Move.storing {c : Cmd Text Event} {r : c.Answer} (hc : w.redis.Coherent S)
    (hd : ∀ t, d.task = some t → t.taskId ∈ w.redis.tasks)
    (ha : (orchestrator Text S sp ex).Answer i c r w w' l) (hm : Move S d c r d') :
    (∀ id ∈ w.redis.tasks, id ∈ w'.redis.tasks) ∧ Storing w l w' ∧
      ∀ t, d'.task = some t → t.taskId ∈ w'.redis.tasks := by
  have hsame (h : w'.redis.tasks = w.redis.tasks)
      (ht : ∀ t, d'.task = some t → t.taskId ∈ w.redis.tasks) :
      (∀ id ∈ w.redis.tasks, id ∈ w'.redis.tasks) ∧ Storing w l w' ∧
        ∀ t, d'.task = some t → t.taskId ∈ w'.redis.tasks := by
    refine ⟨?_, storing_of_tasks h, ?_⟩
    · rw [h]
      exact fun _ hid => hid
    · rw [h]
      exact ht
  have hset {u : Task} (hw : w' = w.onRedis (·.set u.taskId (modelDumpJson u)))
      (hn : Storing w l w') (hu : ∀ v, d'.task = some v → v = u) :
      (∀ id ∈ w.redis.tasks, id ∈ w'.redis.tasks) ∧ Storing w l w' ∧
        ∀ t, d'.task = some t → t.taskId ∈ w'.redis.tasks := by
    subst hw
    refine ⟨fun id hid => (AList.mem_insert _).2 (.inr hid), hn, fun v hv => ?_⟩
    obtain rfl := hu v hv
    exact (AList.mem_insert _).2 (.inl rfl)
  rcases hm.carries with h | h
  · cases h with
    | aside hq ht => exact hsame (answer_sameTasks hq ha).tasks fun t h => hd t (ht t h)
    | push _ ht =>
      have hnone (t : Task) (h : d'.task = some t) : t.taskId ∈ w.redis.tasks := by
        cases ht.symm.trans h
      rcases lpush_effect ha with rfl | ⟨_, hu⟩
      · exact hsame rfl hnone
      · exact hsame hu.sameTasks.tasks hnone
    | write ht hu hv =>
      rename_i t u
      have hmem : u.taskId ∈ w.redis.tasks := by
        rw [hu.1]
        exact hd t ht
      rcases set_effect ha with rfl | ⟨_, hw⟩
      · refine hset rfl (fun id hid => .inl ?_) hv
        rcases (AList.mem_insert _).1 hid with rfl | hid
        · exact hmem
        · exact hid
      · refine hsame hw.sameTasks.tasks fun v h => ?_
        rw [hv v h]
        exact hmem
  · cases h with
    | read hx _ =>
      rename_i x t id
      refine hsame (answer_sameTasks rfl ha).tasks fun u hu => ?_
      obtain rfl := Option.some.inj hu
      cases ha with
      | cmd h =>
        obtain ⟨hr, -⟩ := h
        obtain ⟨v, rfl, -, -, hk⟩ := hc.lookup (Except.ok.inj hr).symm
        rw [parse_dump] at hx
        obtain rfl := Option.some.inj hx
        exact hk.mem
      | abort h =>
        obtain ⟨_, he, _⟩ := h
        cases he
    | store hs hn =>
      rename_i t r
      have htask {v : Task} (h : (granted r (.stored t) .idle).task = some v) : v = t := by
        rcases granted_some rfl h with h | h
        · exact (Option.some.inj h).symm
        · cases h
      rcases setNx_effect ha with ⟨_, rfl, _⟩ | ⟨hr, hw⟩
      · refine hset rfl (fun id hid => ?_) fun v h => htask h
        rcases (AList.mem_insert _).1 hid with rfl | hid
        · refine .inr ⟨i, modelDumpJson t, ?_, AList.lookup_insert _⟩
          cases ha <;> rfl
        · exact .inl hid
      · refine hsame hw.sameTasks.tasks fun v h => ?_
        rcases r with e | _ | _
        · cases h
        · cases h
        · exact absurd rfl hr
    | pop hx =>
      rename_i x t
      rcases brpop_effect ha with ⟨y, hy, rfl, hr⟩ | ⟨hr, _⟩
      · refine hsame rfl fun u hu => ?_
        obtain rfl := Option.some.inj hu
        obtain ⟨v, rfl, -, -, hk⟩ := hc.queued y (List.mem_of_getLast? hy)
        cases hr _ rfl
        rw [parse_dump] at hx
        obtain rfl := Option.some.inj hx
        exact hk.mem
      · exact absurd rfl (hr x)
    | popNothing _ =>
      rcases brpop_effect ha with ⟨_, _, rfl, _⟩ | ⟨_, hw⟩
      · exact hsame rfl nofun
      · exact hsame hw.sameTasks.tasks nofun

theorem storing_tracked (hsp : ∀ q w w', sp q w w' → w'.redis = w.redis)
    (hex : ∀ q b w w' o, ex q b w w' o → w'.redis = w.redis) :
    Tracked (storing Text S sp ex) World.init := by
  have hsame {w w' : World Text Event} {ds : Nat → Progress} {i : Nat} {d : Progress}
      (hi : ∀ i t, (ds i).task = some t → t.taskId ∈ w.redis.tasks) (hw : w'.redis = w.redis)
      (hd : d.task = none) :
      ∀ j t, (Function.update ds i d j).task = some t → t.taskId ∈ w'.redis.tasks := by
    intro j t ht
    rw [hw]
    by_cases hj : j = i
    · rw [hj, Function.update_self] at ht
      cases hd.symm.trans ht
    · rw [Function.update_of_ne hj] at ht
      exact hi j t ht
  constructor
  · exact nofun
  · intro tr w ds i c r w' l d hi ha hok hm
    obtain ⟨hkeep, hnew, hd⟩ := hm.storing hok (hi i) ha
    refine ⟨hnew, fun j t ht => ?_⟩
    by_cases hj : j = i
    · rw [hj, Function.update_self] at ht
      exact hd t ht
    · rw [Function.update_of_ne hj] at ht
      exact hkeep _ (hi j t ht)
  · intro tr w ds i q w' hi _ hs _
    have hw := hsp q w w' hs
    exact ⟨storing_of_tasks (by rw [hw]), hsame hi hw (task_entry q)⟩
  · intro tr w ds i q b w' o hi _ he _
    have hw := hex q b w w' o he
    refine ⟨storing_of_tasks (by rw [hw]), hsame hi hw ?_⟩
    cases o with
    | none => rfl
    | some q' => exact task_entry q'
  · intro tr w ds e w' hi he _
    have hw := (tick_quiet he).tasks
    refine ⟨storing_of_tasks hw, fun j t ht => ?_⟩
    rw [hw]
    exact hi j t ht
  · intro tr w ds w' _ hh _
    obtain rfl := hh
    exact ⟨storing_of_tasks rfl, nofun⟩

end

/-- Every task that is stored, queued or handed to a worker is what some request asks for, and each
request has stored one task at most. -/
structure Provenance (tr : List (SysLabel Text Event)) (w : World Text Event) : Prop where
  stored : ∀ id t, w.redis.record id = some t → Posted tr t
  queued : ∀ x ∈ w.redis.queue, ∃ t, x = modelDumpJson t ∧ Posted tr t
  taken : ∀ i x t, .cmd i .brpop (.ok (some x)) ∈ tr → parse x = some t → Posted tr t
  number : w.redis.tasks.keys.length + (pending tr).length ≤ posts tr

section
variable {tr : List (SysLabel Text Event)} {w w' : World Text Event} {l : SysLabel Text Event}

/-- There are no more records than there are attempts to store one. -/
theorem number_step (hnew : Storing w l w') (hf : Founds (l :: tr))
    (h : w.redis.tasks.keys.length + (pending tr).length ≤ posts tr) :
    w'.redis.tasks.keys.length + (pending (l :: tr)).length ≤ posts (l :: tr) := by
  have hle := length_pending_le l tr
  cases hc : creates l with
  | none =>
    have hsub : w'.redis.tasks.keys ⊆ w.redis.tasks.keys := by
      intro id hid
      rcases hnew id (AList.mem_keys.2 hid) with hid | ⟨i, x, hx, _⟩
      · exact AList.mem_keys.1 hid
      · cases hc.symm.trans hx
    have hkeys := (List.subperm_of_subset w'.redis.tasks.keys_nodup hsub).length_le
    omega
  | some v =>
    obtain ⟨i, id, x⟩ := v
    obtain ⟨body, _, hp, _⟩ := hf i id x hc
    have hsub : w'.redis.tasks.keys ⊆ id :: w.redis.tasks.keys := by
      intro id' hid
      rcases hnew id' (AList.mem_keys.2 hid) with hid | ⟨j, y, hx, _⟩
      · exact List.mem_cons_of_mem _ (AList.mem_keys.1 hid)
      · cases hc.symm.trans hx
        exact List.mem_cons_self
    have hkeys := (List.subperm_of_subset w'.redis.tasks.keys_nodup hsub).length_le
    rw [List.length_cons] at hkeys
    have hlt : ((pending tr).filter (·.1 ≠ i)).length < (pending tr).length :=
      List.length_filter_lt_length_iff_exists.2 ⟨_, hp, by simp⟩
    rw [← pending_creates hc] at hlt
    have hposts : posts (l :: tr) = posts tr := by
      cases l with
      | spawn j q => cases hc
      | _ => rfl
    omega

namespace Provenance
variable {S : Setup Event}

/-- What is stored after a step is what was stored, or what a request asks for. -/
theorem stored_step (h : Provenance tr w) (hc : w.redis.Coherent S)
    (hrem : w.redis.Remembers w'.redis) (hnew : Storing w l w') (hf : Founds (l :: tr))
    {id : String} {t : Task} (ht : w'.redis.record id = some t) : Posted (l :: tr) t := by
  rcases hnew id (AList.mem_keys.2 (Redis.mem_keys_of_record ht)) with hid | ⟨i, x, hx, hlook⟩
  · obtain ⟨x, hx⟩ := Option.isSome_iff_exists.1 (AList.lookup_isSome.2 hid)
    obtain ⟨u, rfl, rfl, -, hk⟩ := hc.lookup hx
    obtain ⟨v, hv, -⟩ := hk
    obtain ⟨t', ht', ho⟩ := hrem _ v hv
    obtain rfl := Option.some.inj (ht'.symm.trans ht)
    exact ((h.stored _ v hv).same ho).cons l
  · obtain ⟨body, u, hp, -, rfl, hu⟩ := hf i id x hx
    rw [Redis.record, hlook] at ht
    obtain rfl := Option.some.inj ((parse_dump u).symm.trans ht)
    exact ⟨i, body, List.mem_cons_of_mem _ (spawn_of_pending hp), hu⟩

theorem taken_step {sp : Kind → World Text Event → World Text Event → Prop}
    {ex : Kind → Except Exc Returned → World Text Event → World Text Event → Option Kind → Prop}
    {s s' : SysConfig Text Event} (h : Provenance tr s.world)
    (hs : (orchestrator Text S sp ex).Step s l s') {i : Nat} {x : Text} {t : Task}
    (hl : .cmd i .brpop (.ok (some x)) ∈ l :: tr) (hx : parse x = some t) :
    Posted (l :: tr) t := by
  rcases List.mem_cons.1 hl with rfl | hl
  · cases hs with
    | answer _ ha =>
      cases ha with
      | cmd hr =>
        have ha : (orchestrator Text S sp ex).Answer i .brpop (.ok (some x)) s.world _
            (.cmd i .brpop (.ok (some x))) := .cmd hr
        rcases brpop_effect ha with ⟨y, hy, -, he⟩ | ⟨hn, -⟩
        · cases he _ rfl
          obtain ⟨u, rfl, hu⟩ := h.queued x (List.mem_of_getLast? hy)
          obtain rfl := Option.some.inj ((parse_dump u).symm.trans hx)
          exact hu.cons _
        · exact absurd rfl (hn x)
  · exact (h.taken i x t hl hx).cons l

end Provenance

/-- Any rules for the start and the end of processes that leave Redis alone and by which no request
starts over. -/
theorem provenance_of_run {S : Setup Event}
    {sp : Kind → World Text Event → World Text Event → Prop}
    {ex : Kind → Except Exc Returned → World Text Event → World Text Event → Option Kind → Prop}
    {s : SysConfig Text Event} (hsp : ∀ q w w', sp q w w' → w'.redis = w.redis)
    (hex : ∀ q b w w' o, ex q b w w' o → w'.redis = w.redis ∧ ∀ q' ∈ o, Kind.asked q' = none)
    (hr : Run (orchestrator Text S sp ex) anyway (.idle .init) tr s) : Provenance tr s.world := by
  have hcoh : (coherence Text S sp ex).Sound [] (Coherence.Answer S) World.init :=
    Coherence.sound Redis.coherent_empty hsp fun q b w w' o h => (hex q b w w' o h).1
  have hfound : (founding Text S sp ex).Sound none (fun _ _ _ => True) World.init :=
    Founding.sound fun q b w w' o h => (hex q b w w' o h).2
  have hstore : Tracked (storing Text S sp ex) World.init :=
    storing_tracked hsp fun q b w w' o h => (hex q b w w' o h).1
  have hcoherent {tr : List (SysLabel Text Event)} {s : SysConfig Text Event}
      (hr : Run (orchestrator Text S sp ex) anyway (.idle .init) tr s) : s.world.redis.Coherent S :=
    (hcoh.inv hr).choose_spec.1
  induction hr with
  | nil => exact ⟨nofun, nofun, nofun, Nat.le_refl _⟩
  | @cons tr s l s' hr hs hok ih =>
    have hrun : Run (orchestrator Text S sp ex) anyway (.idle .init) (l :: tr) s' :=
      .cons hr hs hok
    have hf : Founds (l :: tr) := (hfound.inv hrun).choose_spec.2
    have hnew : Storing s.world l s'.world :=
      hstore.sound.guar (hr.refine fun _ _ _ _ hr _ _ => hcoherent hr) hs (hcoherent hr)
    have hrem := (hcoh.guar hr hs hok).1
    have hstored {id : String} {t : Task} (ht : s'.world.redis.record id = some t) :
        Posted (l :: tr) t := ih.stored_step (hcoherent hr) hrem hnew hf ht
    constructor
    · exact fun id t ht => hstored ht
    · intro x hx
      obtain ⟨t, rfl, -, -, u, hu, ho⟩ := (hcoherent hrun).queued x hx
      exact ⟨t, rfl, (hstored hu).same ho.symm⟩
    · exact fun i x t hl hx => ih.taken_step hs hl hx
    · exact number_step hnew hf ih.number

end

/-- In any number of replicas, whatever is cut short: no task comes from anywhere but a request. -/
theorem provenance_law {S : Setup Event} {tr : List (SysLabel Text Event)}
    {s : SysConfig Text Event} (hr : Run (replicas Text S) anyway (.idle .init) tr s) :
    Provenance tr s.world := by
  apply provenance_of_run _ _ hr
  · exact fun _ _ _ h => by rw [h]
  · rintro q b w w' o ⟨rfl, rfl | ⟨-, -, rfl⟩⟩
    · exact ⟨rfl, nofun⟩
    · exact ⟨rfl, fun q' hq => Option.some.inj hq ▸ rfl⟩

/-- A task that has been taken from the queue and put back. -/
theorem provenance_law_retried : ∃ tr s, Run (replicas Task demo) anyway (.idle .init) tr s ∧
    told "u" s = some (.interrupted, 1, "retry 1: ") ∧ Provenance tr s.world := by
  obtain ⟨tr, s, hr, ht⟩ := replicaDriver.drive_observe anyway (.idle .init)
    (create 1 ++ retriedTurn) (fun o => told "u" o.2)
    (show _ = some (TaskStatus.interrupted, 1, "retry 1: ") by decide)
  exact ⟨tr, s, hr, ht, provenance_law hr⟩

end Orchestrator
