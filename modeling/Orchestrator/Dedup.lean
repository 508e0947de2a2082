import Orchestrator.Delivery
import Orchestrator.Schedule

namespace Orchestrator
open Concurrency Async
set_option autoImplicit true

/-- The commands that are neither part of a check nor save a task. -/
def Cmd.passive : Cmd Text Event → Bool
  | .smembers _ | .mget _ | .setNx .. => false
  | _ => true

theorem created_passive {i : Nat} {c : Cmd Text Event} (hc : c.passive = true) (r : c.Answer) :
    created (.cmd i c r : SysLabel Text Event) = none := by
  cases c with
  | smembers _ | mget _ | setNx _ _ => cases hc
  | _ => rfl

variable [TaskJson Text]

theorem passive_of_work {c : Cmd Text Event} (h : c.work) : c.passive = true := by
  cases c with
  | smembers _ | mget _ | setNx _ _ => exact absurd h.2 not_false
  | _ => rfl

theorem passive_of_recovery {c : Cmd Text Event} (h : c.recovery) : c.passive = true := by
  cases c with
  | smembers _ | mget _ | setNx _ _ => exact absurd h.2 not_false
  | _ => rfl

/-- What a label says about the tasks that `find_incomplete` has read in process `i`. -/
def reads (i : Nat) : SysLabel Text Event → Option (List Task)
  | .cmd j (.smembers _) _ => if j = i then some [] else none
  | .cmd j (.mget _) (.ok raws) => if j = i then some (raws.filterMap (·.bind parse)) else none
  | _ => none

/-- The tasks that the last `find_incomplete` of process `i` has read. -/
def seen (i : Nat) : List (SysLabel Text Event) → List Task
  | [] => []
  | l :: tr => (reads i l).getD (seen i tr)

/-- The check of process `i` has read every task that the project has by now, and has read none
of them as interrupted. -/
def SeesAll (i : Nat) (project : String) (tr : List (SysLabel Text Event))
    (w : World Text Event) : Prop :=
  ∀ id ∈ w.redis.tasks.keys, ∀ u ∈ w.redis.record id, u.projectName = project →
    ∃ v ∈ seen i tr, v.taskId = id ∧ v.status ≠ .interrupted

def saving : SysLabel Text Event → Option (Nat × Text)
  | .cmd i (.setNx _ x) _ => some (i, x)
  | _ => none

/-- One live process, in which nobody saves a task after a check that missed one. -/
def checked : Filter Text Event := fun tr w l w' =>
  steady tr w l w' ∧ ∀ s ∈ saving l, ∀ t ∈ parse s.2, SeesAll s.1 t.projectName tr w

def Active (t : Task) : Prop := t.status = .pending ∨ t.status = .running

/-- No project has two active tasks. -/
def OneActive (s : SysConfig Text Event) : Prop :=
  ∀ id id' t t', s.world.redis.record id = some t → s.world.redis.record id' = some t' →
    t.projectName = t'.projectName → Active t → Active t' → id = id'

theorem Active.live {t : Task} (h : Active t) : Live t := by
  unfold Live Task.isTerminal
  rcases h with h | h <;> rw [h] <;> rfl

/-- No project has two tasks that are not finished. -/
def OneLive (w : World Text Event) : Prop :=
  ∀ id id' t t', w.redis.record id = some t → w.redis.record id' = some t' →
    t.projectName = t'.projectName → Live t → Live t' → id = id'

/-- A task that was read is still stored, and still finished if it was. -/
def Known (w : World Text Event) (u : Task) : Prop :=
  ∃ t, w.redis.record u.taskId = some t ∧ (u.isTerminal = true → t.isTerminal = true)

structure Surveyed (tr : List (SysLabel Text Event)) (w : World Text Event)
    (ds : Nat → Bool) : Prop where
  alone : OneLive w
  known : ∀ i, ∀ u ∈ seen i tr, Known w u
  clear : ∀ i, ds i = true → ∀ u ∈ seen i tr, ¬Active u

/-- The second pass: what the first one guarantees of every step is a filter here. -/
def survey (Text : Type) [TaskJson Text] (S : Setup Event) : Assertion (system Text S) Bool where
  ok tr w l w' :=
    checked tr w l w' ∧ Kept w l w' ∧ ∀ id t, w.redis.record id = some t → t.taskId = id
  inv := Surveyed
  guar _ _ _ := True

section
variable {tr : List (SysLabel Text Event)} {w w' : World Text Event} {l : SysLabel Text Event}
  {ds : Nat → Bool} {i : Nat} {S : Setup Event}

theorem Kept.live {id : String} {t t' : Task} (h : Kept w l w') (ht : w.redis.record id = some t)
    (ht' : w'.redis.record id = some t') : t.SameTask t' ∧ (Live t' → Live t) := by
  obtain ⟨u, hu, hs, hl⟩ := h.kept id t ht
  rw [hu] at ht'
  cases ht'
  refine ⟨hs, fun hlive => ?_⟩
  unfold Live Task.isTerminal at *
  by_contra hterm
  rw [hl.of_terminal (by simpa using hterm)] at hlive
  exact hterm hlive

theorem Known.kept {u : Task} (h : Known w u) (hk : Kept w l w') : Known w' u := by
  obtain ⟨t, ht, hterm⟩ := h
  obtain ⟨t', ht', _, hl⟩ := hk.kept _ t ht
  refine ⟨t', ht', fun hu => ?_⟩
  have := hterm hu
  unfold Task.isTerminal at *
  rwa [hl.of_terminal this]

theorem OneLive.kept (h : OneLive w) (hk : Kept w l w') (hl : created l = none) : OneLive w' := by
  have hold (id : String) (t' : Task) (ht' : w'.redis.record id = some t') :
      ∃ t, w.redis.record id = some t := by
    cases hr : w.redis.record id with
    | some t => exact ⟨t, rfl⟩
    | none =>
      have := hk.fresh id t' ht' hr
      rw [hl] at this
      cases this
  intro id id' t t' ht ht' hp hlive hlive'
  obtain ⟨u, hu⟩ := hold id t ht
  obtain ⟨u', hu'⟩ := hold id' t' ht'
  obtain ⟨hs, hul⟩ := hk.live hu ht
  obtain ⟨hs', hul'⟩ := hk.live hu' ht'
  refine h id id' u u' hu hu' ?_ (hul hlive) (hul' hlive')
  rw [hs.2.1, hs'.2.1, hp]

/-- A step that does not read for a check. -/
theorem Surveyed.pass (h : Surveyed tr w ds) (hk : Kept w l w') (ha : OneLive w')
    (hr : ∀ j, reads j l = none) : Surveyed (l :: tr) w' ds := by
  have hseen (j : Nat) : seen j (l :: tr) = seen j tr := by
    simp only [seen, hr j, Option.getD_none]
  refine ⟨ha, ?_, ?_⟩
  · intro j u hu
    rw [hseen] at hu
    exact (h.known j u hu).kept hk
  · intro j hj u hu
    rw [hseen] at hu
    exact h.clear j hj u hu

theorem survey_answer {c : Cmd Text Event} {r : c.Answer}
    (ha : (system Text S).Answer i c r w w' l) (hok : (survey Text S).ok tr w l w') :
    l = .cmd i c r ∧ exec c r w w' := by
  cases ha with
  | cmd h => exact ⟨rfl, h⟩
  | abort h => exact absurd hok.1.1 not_false

theorem reads_passive {c : Cmd Text Event} (hc : c.passive = true) (r : c.Answer) (j : Nat) :
    reads j (.cmd i c r : SysLabel Text Event) = none := by
  cases c with
  | smembers _ | mget _ | setNx _ _ => cases hc
  | _ => rfl

theorem frames_passive (d : Bool) :
    (survey Text S).Frames i (fun c => c.passive = true) d := by
  intro c hc tr w ds l r w' hi _ ha hok
  obtain ⟨rfl, _⟩ := survey_answer ha hok
  exact ⟨trivial, hi.pass hok.2.1 (hi.alone.kept hok.2.1 (created_passive hc r))
    (reads_passive hc r)⟩

theorem wp_passive {c : Cmd Text Event} (hc : c.passive = true) {Q : c.Reply → σ → Bool → Prop}
    (hQ : ∀ a, Q a s d) :
    Wp (survey Text S) i (ask c) Q (fun _ _ _ => True) s d := by
  apply Wp.call
  intro tr w ds l r w' hi hd ha hok
  obtain ⟨hg, hi'⟩ := frames_passive d c hc tr w ds l r w' hi hd ha hok
  refine ⟨hg, d, ?_, ?_⟩
  · rwa [← hd, Function.update_eq_self]
  · cases r with
    | ok a => exact hQ a
    | error e => trivial

/-- A read for a check replaces what was seen before. -/
theorem Surveyed.read {us : List Task} (h : Surveyed tr w ds) (hk : Kept w l w')
    (hl : created l = none) (hr : ∀ j, reads j l = if i = j then some us else none)
    (hu : ∀ u ∈ us, Known w' u) (hd : d = true → ∀ u ∈ us, ¬Active u) :
    Surveyed (l :: tr) w' (Function.update ds i d) := by
  have hself : seen i (l :: tr) = us := by
    simp only [seen, hr i, ↓reduceIte, Option.getD_some]
  have hother (j : Nat) (hj : j ≠ i) : seen j (l :: tr) = seen j tr := by
    simp only [seen, hr j, Ne.symm hj, ↓reduceIte, Option.getD_none]
  refine ⟨h.alone.kept hk hl, fun j u hj => ?_, fun j hj u hu' => ?_⟩
  · by_cases hji : j = i
    · rw [hji, hself] at hj
      exact hu u hj
    · rw [hother j hji] at hj
      exact (h.known j u hj).kept hk
  · by_cases hji : j = i
    · rw [hji, Function.update_self] at hj
      rw [hji, hself] at hu'
      exact hd hj u hu'
    · rw [Function.update_of_ne hji] at hj
      rw [hother j hji] at hu'
      exact h.clear j hj u hu'

theorem wp_smembers {project : String} {Q : List String → σ → Bool → Prop}
    {X : Exc → σ → Bool → Prop} (hQ : ∀ ids, Q ids s true) :
    Wp (survey Text S) i (ask (.smembers project)) Q X s d := by
  apply Wp.call
  intro tr w ds l r w' hi hd ha hok
  obtain ⟨rfl, ⟨ids, rfl, _⟩, rfl⟩ := survey_answer ha hok
  exact ⟨trivial, true, hi.read hok.2.1 rfl (fun _ => rfl) nofun fun _ => nofun, hQ ids⟩

/-- Nothing active among the records read. -/
def noneActive (raws : List (Option Text)) : Bool :=
  (raws.filterMap (·.bind parse)).all fun u => !(u.status = .pending || u.status = .running)

theorem wp_mget {ids : List String} {Q : List (Option Text) → σ → Bool → Prop}
    {X : Exc → σ → Bool → Prop} (hQ : ∀ raws, Q raws s (noneActive raws)) :
    Wp (survey Text S) i (ask (.mget ids)) Q X s d := by
  apply Wp.call
  intro tr w ds l r w' hi hd ha hok
  obtain ⟨rfl, rfl, rfl⟩ := survey_answer ha hok
  refine ⟨trivial, _, hi.read hok.2.1 rfl (fun _ => rfl) ?_ ?_, hQ _⟩
  · intro u hu
    obtain ⟨raw, hraw, hp⟩ := List.mem_filterMap.1 hu
    obtain ⟨id, _, rfl⟩ := List.mem_map.1 hraw
    have he := hok.2.2 id u hp
    exact ⟨u, by rw [he]; exact hp, fun h => h⟩
  · intro hd u hu hactive
    have := List.all_eq_true.1 hd u hu
    rcases hactive with ha | ha <;> simp [ha] at this

theorem wp_findIncomplete {s : σ} (project : String) :
    Wp (survey Text S) i (TaskStore.findIncomplete project)
      (fun o _ d => o = none → d = true) (fun _ _ _ => True) s d := by
  apply Wp.bind
  apply Wp.bind
  apply wp_smembers
  intro ids
  split
  · exact Wp.pure _ (Wp.pure _ fun _ => rfl)
  · apply Wp.bind
    apply wp_mget
    intro raws
    refine Wp.pure _ (Wp.pure _ fun hn => ?_)
    unfold noneActive
    rw [List.all_eq_true]
    intro u hu
    have := List.find?_eq_none.1 hn u hu
    simpa using this

/-- After a check that saw everything, the other tasks of the project are finished. -/
theorem Surveyed.finished {id project : String} {u : Task} (h : Surveyed tr w ds)
    (hd : ds i = true) (hs : SeesAll i project tr w) (hu : w.redis.record id = some u)
    (hp : u.projectName = project) : ¬Live u := by
  obtain ⟨v, hv, rfl, hne⟩ := hs id (Redis.mem_keys_of_record hu) u hu hp
  have hact := h.clear i hd v hv
  have hterm : v.isTerminal = true := by
    unfold Task.isTerminal
    unfold Active at hact
    cases hst : v.status with
    | success | failed => rfl
    | pending => exact absurd (.inl hst) hact
    | running => exact absurd (.inr hst) hact
    | interrupted => exact absurd hst hne
  obtain ⟨t, ht, hk⟩ := h.known i v hv
  rw [hu] at ht
  cases ht
  rw [Live, hk hterm]
  exact Bool.noConfusion

theorem Surveyed.save {t : Task} (h : Surveyed tr w ds) (hd : ds i = true)
    (hs : SeesAll i t.projectName tr w) :
    OneLive (w.onRedis (·.set t.taskId (modelDumpJson t))) := by
  intro id id' u u' hu hu' hp hlive hlive'
  simp only [World.onRedis, Redis.record_set_dump] at hu hu'
  rcases update_eq_iff.1 hu with ⟨rfl, he⟩ | ⟨_, hu⟩ <;>
    rcases update_eq_iff.1 hu' with ⟨rfl, he'⟩ | ⟨_, hu'⟩
  · rfl
  · cases he
    exact absurd hlive' (h.finished hd hs hu' hp.symm)
  · cases he'
    exact absurd hlive (h.finished hd hs hu hp)
  · exact h.alone id id' u u' hu hu' hp hlive hlive'

theorem wp_saveNx {t : Task} {Q : Bool → σ → Bool → Prop} (hQ : ∀ b, Q b s true) :
    Wp (survey Text S) i (ask (.setNx t.taskId (modelDumpJson t))) Q
      (fun _ _ _ => True) s true := by
  apply Wp.call
  intro tr w ds l r w' hi hd ha hok
  obtain ⟨rfl, hx⟩ := survey_answer ha hok
  have hds : Function.update ds i true = ds := by rw [← hd, Function.update_eq_self]
  have hsave : OneLive w' := by
    simp only [exec] at hx
    split at hx
    · obtain ⟨_, rfl⟩ := hx
      exact hi.alone
    · obtain ⟨_, rfl⟩ := hx
      exact hi.save hd (hok.1.2 _ rfl t (parse_dump t))
  refine ⟨trivial, true, ?_, ?_⟩
  · rw [hds]
    exact hi.pass hok.2.1 hsave fun _ => rfl
  · cases r with
    | ok b => exact hQ b
    | error e => trivial

theorem wp_asks {q : Py Text Event σ α} {d : Bool} (hq : Asks (fun c => c.passive = true) q)
    {Q : α → σ → Bool → Prop} (hQ : ∀ a s, Q a s d) :
    Wp (survey Text S) i q Q (fun _ _ _ => True) s d := by
  apply Wp.mono (Wp.of_within hq (frames_passive d))
  · rintro a s _ rfl
    exact hQ a s
  · exact fun _ _ _ _ => trivial

/-- Where no task is found, the check has seen nothing active. -/
theorem wp_findExisting {s : σ} (body : TaskCreateRequest) :
    Wp (survey Text S) i (findExisting S body) (fun o _ d => o = none → d = true)
      (fun _ _ _ => True) s d := by
  apply Wp.bind
  apply Wp.mono (wp_findIncomplete body.projectName)
  · intro o s d ho
    cases o with
    | some t => exact Wp.pure _ nofun
    | none =>
      refine wp_asks (asks_findByDigest (fun _ => rfl) (fun _ => rfl) _ _) fun a s _ => ho rfl
  · exact fun _ _ _ h => h

theorem wp_createTask_checked {s : Unit} (body : TaskCreateRequest) :
    Wp (survey Text S) i (createTask S body) (fun _ _ _ => True) (fun _ _ _ => True)
      s d := by
  apply Wp.bind
  apply Wp.mono (wp_findExisting body)
  · intro o s d ho
    cases o with
    | some t => exact Wp.pure _ trivial
    | none =>
      rw [ho rfl]
      apply Wp.bind
      apply wp_asks (asks_newTask (p := fun c => c.passive = true) rfl rfl body)
      intro t s
      apply Wp.bind
      apply Wp.bind
      apply wp_saveNx
      intro b
      cases b with
      | false => exact Wp.bind (Wp.raise _ trivial)
      | true =>
        apply Wp.bind
        apply wp_passive rfl
        intro _
        have hq (s : Unit) : Wp (survey Text S) i
            (do TaskQueue.enqueue t; return TaskResponse.fromTask t) (fun _ _ _ => True)
            (fun _ _ _ => True) s true :=
          wp_asks (within_bind (asks rfl) fun _ => within_pure _) fun _ _ => trivial
        split
        · exact wp_passive rfl fun _ => hq _
        · exact Wp.pure _ (hq _)
  · exact fun _ _ _ h => h

theorem survey_body (q : Kind) :
    Safe (survey Text S) i (fun _ _ => True) ((system Text S).body q) d := by
  apply Wp.start
  cases q with
  | recover =>
    apply wp_asks (within_bind (asks_recoverStrandedTasks.mono fun _ h => passive_of_recovery h)
      fun _ => within_pure _)
    exact fun _ _ => trivial
  | worker =>
    apply wp_asks (within_bind (asks_turn.mono fun _ h => passive_of_work h) fun _ => within_pure _)
    exact fun _ _ => trivial
  | request body =>
    apply Wp.bind
    exact Wp.mono (wp_createTask_checked body) (fun _ _ _ _ => Wp.pure _ trivial)
      fun _ _ _ h => h

theorem Surveyed.forget (h : Surveyed tr w ds) (i : Nat) :
    Surveyed tr w (Function.update ds i false) := by
  refine ⟨h.alone, h.known, fun j hj => ?_⟩
  by_cases hji : j = i
  · rw [hji, Function.update_self] at hj
    cases hj
  · rw [Function.update_of_ne hji] at hj
    exact h.clear j hj

theorem survey_sound :
    (survey Text S).Sound false (fun _ _ _ => True) World.init where
  start := by
    refine ⟨?_, nofun, nofun⟩
    intro id id' t t' ht
    cases ht
  spawn := by
    intro tr w ds i q w' h hi hs hok
    refine ⟨trivial, false, ?_, survey_body q⟩
    rw [← hi, Function.update_eq_self]
    exact h.pass hok.2.1 (h.alone.kept hok.2.1 rfl) fun _ => rfl
  exit := by
    intro tr w ds i q b w' o h _ he hok
    have h' : Surveyed (.exit i q b :: tr) w' (Function.update ds i false) :=
      (h.pass hok.2.1 (h.alone.kept hok.2.1 rfl) fun _ => rfl).forget i
    refine ⟨trivial, ?_⟩
    cases o with
    | none => exact h'
    | some q' => exact ⟨false, h', survey_body q'⟩
  env := by
    intro tr w ds e w' h he hok
    exact ⟨trivial, h.pass hok.2.1 (h.alone.kept hok.2.1 rfl) fun _ => rfl⟩
  halt := by
    intro tr w ds w' h hh hok
    exact absurd hok.1.1 not_false

theorem allowed_of_checked (h : checked tr w l w') : allowed True False tr w l w' := by
  obtain ⟨hs, _⟩ := h
  cases l with
  | cmd i c r =>
    cases c with
    | lpush x => exact False.elim
    | iterEvents _ _ _ | awaitFuture _ _ => exact .inl trivial
    | _ => trivial
  | abort i c r => exact absurd hs not_false
  | halt => exact hs
  | _ => trivial

theorem one_active {s : SysConfig Text Event}
    (hr : Run (system Text S) checked (.idle .init) tr s) : OneActive s := by
  have hA : (ownership Text S True False).Sound .gone (Kind.Leaves True) World.init :=
    ownership_sound fun _ => trivial
  have hsurvey : Run (system Text S) (survey Text S).ok (.idle .init) tr s := by
    refine hr.refine fun tr s l s' hr hs hok => ?_
    have hr' := hr.refine fun _ _ _ _ _ _ hok => allowed_of_checked hok
    obtain ⟨ds, hi⟩ := hA.inv hr'
    exact ⟨hok, hA.guar hr' hs (allowed_of_checked hok), hi.ledger.custody.keyed⟩
  obtain ⟨ds, hi⟩ := survey_sound.inv hsurvey
  intro id id' t t' ht ht' hp hact hact'
  exact hi.alone id id' t t' ht ht' hp hact.live hact'.live

end

instance (i : Nat) (project : String) (tr : List (SysLabel Text Event)) (w : World Text Event) :
    Decidable (SeesAll i project tr w) :=
  inferInstanceAs (Decidable (∀ id ∈ w.redis.tasks.keys, ∀ u ∈ w.redis.record id,
    u.projectName = project → ∃ v ∈ seen i tr, v.taskId = id ∧ v.status ≠ .interrupted))

instance (tr : List (SysLabel Text Event)) (w : World Text Event) (l : SysLabel Text Event)
    (w' : World Text Event) : Decidable (checked tr w l w') :=
  inferInstanceAs (Decidable (steady tr w l w' ∧
    ∀ s ∈ saving l, ∀ t ∈ parse s.2, SeesAll s.1 t.projectName tr w))

/-- A second request after the first task is finished. -/
def laterSchedule : Schedule :=
  start ++ create 1 ++ [.spawn 2 .worker] ++ turnToStream 2 0 ++ turnFromStream 2 ++
    [.spawn 1 (.request demoRequest)] ++ go 1 10

def racingSchedule : Schedule := race ++ go 1 1 ++ go 2 1

theorem one_active_later : ∃ tr s, DemoRun checked tr s ∧
    s.world.redis.tasks.keys.length = 2 ∧ OneActive s := by
  obtain ⟨tr, s, hr, hs⟩ := demoDriver.drive_observe checked (.idle .init) laterSchedule
    (fun o => some o.2.world.redis.tasks.keys.length) (show _ = some 2 by decide)
  exact ⟨tr, s, hr, Option.some.inj hs, one_active hr⟩

theorem not_one_active : ∃ tr s, DemoRun steady tr s ∧ ¬OneActive s := by
  obtain ⟨tr, s, hr, hs⟩ := demoDriver.drive_observe steady (.idle .init) racingSchedule
    (fun o => some ((o.2.world.redis.record "u").map fun t => (t.projectName, t.status),
      (o.2.world.redis.record "uu").map fun t => (t.projectName, t.status)))
    (show _ = some (some ("p", .pending), some ("p", .pending)) by decide)
  refine ⟨tr, s, hr, fun h => ?_⟩
  obtain ⟨h₁, h₂⟩ := Prod.mk.inj (Option.some.inj hs)
  obtain ⟨t, ht, he⟩ := Option.map_eq_some_iff.1 h₁
  obtain ⟨t', ht', he'⟩ := Option.map_eq_some_iff.1 h₂
  obtain ⟨hp, hst⟩ := Prod.mk.inj he
  obtain ⟨hp', hst'⟩ := Prod.mk.inj he'
  have := h "u" "uu" t t' ht ht' (hp.trans hp'.symm) (.inl hst) (.inl hst')
  revert this
  decide

end Orchestrator
