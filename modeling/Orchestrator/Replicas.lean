import Orchestrator.Holding
import Orchestrator.Schedule
import Orchestrator.Concurrency.Monitor

namespace Orchestrator
open Concurrency Async Progress
set_option autoImplicit true

/-- A worker takes another turn or is stopped, on the word of its own replica. -/
def leave (q : Kind) (b : Except Exc Returned) (w w' : World Text Event) (o : Option Kind) : Prop :=
  w' = w ∧ (o = none ∨ q = .worker ∧ b.toBool = true ∧ o = some .worker)

/-- What a worker is at: the task it has popped, the token of the lock from its acquisition to its
release, and whether it has written the record. -/
structure Duty where
  task : Option Task
  token : Option String
  wrote : Bool

namespace Duty

def none : Duty := ⟨.none, .none, false⟩

/-- The worker executes this task. -/
def works (d : Duty) (id : String) : Bool := d.token.isSome && d.task.any (·.taskId = id)

/-- The worker executes this task and holds the lock of its project. -/
def grips (d : Duty) (r : Redis Text) (id : String) : Bool :=
  d.task.any fun t => t.taskId = id && d.token.any (r.holds t.projectName)

theorem works_of_grips {d : Duty} {r : Redis Text} {id : String} (h : d.grips r id = true) :
    d.works id = true := by
  obtain ⟨t, ht, hg⟩ := (Option.any_eq_true _ _).1 h
  obtain ⟨hid, hτ⟩ := Bool.and_eq_true_iff.1 hg
  obtain ⟨τ, hd, _⟩ := (Option.any_eq_true _ _).1 hτ
  simp only [Duty.works, hd, Option.isSome_some, ht, Option.any_some, hid, Bool.and_self]

end Duty

section
variable [TaskJson Text]

/-- Several replicas with one Redis. A replica that starts runs its recovery while the others
serve. -/
abbrev replicas (Text : Type) [TaskJson Text] (S : Setup Event) :
    Machine (Cmd Text Event) Cmd.Answer (Except Exc Returned) (World Text Event) Kind Tick :=
  orchestrator Text S (fun _ w w' => w' = w) leave

def Duty.after (d : Duty) : (c : Cmd Text Event) → c.Answer → Duty
  | .brpop, .ok (some x) => ⟨parse x, .none, false⟩
  | .brpop, _ => .none
  | .acquireLock _ τ _, .ok true => { d with token := some τ }
  | .evalRelease .., .ok _ => .none
  | .set .., _ => { d with wrote := true }
  | _, _ => d

def duty (Text : Type) [TaskJson Text] (Event : Type) :
    Monitor (Cmd Text Event) Cmd.Answer Duty where
  init := .none
  cmd := Duty.after
  abort := Duty.after

def glimpse (ts : List Task) : (c : Cmd Text Event) → c.Answer → List Task
  | .get _, .ok (some x) => (parse x).elim ts fun t => if t.isTerminal then ts else t :: ts
  | .lpush _, _ => []
  | _, _ => ts

/-- The unfinished tasks that a recovery has read and not put back yet. Other processes are no
recoveries. -/
def sight (i : Nat) : List (SysLabel Text Event) → Option (List Task)
  | [] => none
  | .cmd j c r :: tr | .abort j c r :: tr =>
    if j = i then (sight i tr).map (glimpse · c r) else sight i tr
  | .spawn j .recover :: tr => if j = i then some [] else sight i tr
  | .spawn j _ :: tr | .exit j _ _ :: tr => if j = i then none else sight i tr
  | .env _ :: tr => sight i tr
  | .halt :: _ => none

def Cmd.isGet : Cmd Text Event → Bool
  | .get _ => true
  | _ => false

def Cmd.isSet (id : String) : Cmd Text Event → Bool
  | .set id' _ => id' = id
  | _ => false

/-- Since the latest GET of the process, a worker that executes the task has written its record. -/
def overtaken (i : Nat) (id : String) : List (SysLabel Text Event) → Bool
  | [] => false
  | .cmd j c _ :: tr | .abort j c _ :: tr =>
    !(j = i && c.isGet) &&
      (overtaken i id tr || c.isSet id && ((duty Text Event).read j tr).works id)
  | .spawn _ _ :: tr | .exit _ _ _ :: tr | .env _ :: tr => overtaken i id tr
  | .halt :: _ => false

/-- The process that sends a command, carried out or cut short. -/
def sender : SysLabel Text Event → Option (Nat × Cmd Text Event)
  | .cmd i c _ | .abort i c _ => some (i, c)
  | _ => none

/-- A recovery does not write over a status that a worker has written for the task, and does not
put a task back into the queue while a worker executes it and holds the lock. -/
structure Spares (tr : List (SysLabel Text Event)) (w : World Text Event)
    (l : SysLabel Text Event) : Prop where
  record : ∀ i id x, sender l = some (i, .set id x) → (sight i tr).isSome = true →
    overtaken i id tr = false ∧
      ∀ j, ((duty Text Event).read j tr).works id = true →
        ((duty Text Event).read j tr).wrote = false
  queue : ∀ i x t, sender l = some (i, .lpush x) → (sight i tr).isSome = true →
    parse x = some t → ∀ j, ((duty Text Event).read j tr).grips w.redis t.taskId = false

/-- No worker executes the task. -/
def Idle (tr : List (SysLabel Text Event)) (id : String) : Prop :=
  ∀ j, ((duty Text Event).read j tr).works id = false

/-- No recovery has read the task without having put it back. -/
def Unread (tr : List (SysLabel Text Event)) (id : String) : Prop :=
  ∀ i, ∀ ts ∈ sight i tr, ∀ t ∈ ts, t.taskId ≠ id

/-- The process whose GET finds a record, and the record. -/
def found : SysLabel Text Event → Option (Nat × Text)
  | .cmd i (.get _) (.ok (some x)) => some (i, x)
  | _ => none

/-- The process that acquires a lock. -/
def acquirer : SysLabel Text Event → Option Nat
  | .cmd j (.acquireLock ..) (.ok true) => some j
  | _ => none

/-- From the GET of an unfinished record until the recovery has put it back, no worker executes the
task. -/
def undisturbed : Filter Text Event := fun tr _ l _ =>
  (∀ p ∈ found l, (sight p.1 tr).isSome = true → ∀ t ∈ (parse p.2 : Option Task),
    t.isTerminal = false → Idle tr t.taskId) ∧
  ∀ j ∈ acquirer l, ∀ t ∈ ((duty Text Event).read j tr).task, Unread tr t.taskId

theorem sight_of_not_mem {i : Nat} {tr : List (SysLabel Text Event)} (h : i ∉ Monitor.actors tr) :
    sight i tr = none := by
  induction tr with
  | nil => rfl
  | cons l tr ih =>
    cases l with
    | cmd j _ _ | abort j _ _ =>
      have hj : j ≠ i := fun hj => h (hj ▸ List.mem_cons_self)
      rw [sight, if_neg hj, ih (List.not_mem_of_not_mem_cons h)]
    | spawn j q =>
      have hj : j ≠ i := fun hj => h (hj ▸ List.mem_cons_self)
      have hi := ih (List.not_mem_of_not_mem_cons h)
      cases q <;> simp only [sight, hj, ↓reduceIte, hi]
    | exit j _ _ =>
      have hj : j ≠ i := fun hj => h (hj ▸ List.mem_cons_self)
      rw [sight, if_neg hj, ih (List.not_mem_of_not_mem_cons h)]
    | env e => exact ih h
    | halt => rfl

theorem unread_iff {tr : List (SysLabel Text Event)} {id : String} : Unread tr id ↔
    ∀ i ∈ Monitor.actors tr, ∀ ts ∈ sight i tr, ∀ t ∈ ts, t.taskId ≠ id := by
  refine ⟨fun h i _ => h i, fun h i => ?_⟩
  by_cases hi : i ∈ Monitor.actors tr
  · exact h i hi
  · rw [sight_of_not_mem hi]
    exact fun ts hts => by cases hts

instance (tr : List (SysLabel Text Event)) (id : String) : Decidable (Idle tr id) :=
  decidable_of_iff _ ((duty Text Event).forall_read_iff
    (P := fun d => d.works id = false) rfl tr).symm

instance (tr : List (SysLabel Text Event)) (id : String) : Decidable (Unread tr id) :=
  decidable_of_iff _ unread_iff.symm

instance (tr : List (SysLabel Text Event)) (w : World Text Event) (l : SysLabel Text Event)
    (w' : World Text Event) : Decidable (undisturbed tr w l w') :=
  inferInstanceAs (Decidable ((∀ p ∈ found l, _ → ∀ t ∈ (parse p.2 : Option Task), _ → _) ∧
    ∀ j ∈ acquirer l, ∀ t ∈ ((duty Text Event).read j tr).task, _))

/-- What a recovery has read is executed by no worker, and is as it was read. -/
def Clear (tr : List (SysLabel Text Event)) : Prop :=
  ∀ i, ∀ ts ∈ sight i tr, ∀ t ∈ ts, Idle tr t.taskId ∧ overtaken i t.taskId tr = false

/-- The task that a command stores or queues. -/
def Cmd.hands : Cmd Text Event → Option String
  | .set id _ => some id
  | .lpush x => (parse x).map (·.taskId)
  | _ => none

/-- What a recovery has just stored or queued is executed by no worker, and is as it was read. -/
def Spared : List (SysLabel Text Event) → Prop
  | [] => True
  | l :: tr => ∀ i c id, sender l = some (i, c) → (sight i tr).isSome = true → c.hands = some id →
      overtaken i id tr = false ∧ Idle tr id

variable {S : Setup Event} {sp : Kind → World Text Event → World Text Event → Prop}
  {ex : Kind → Except Exc Returned → World Text Event → World Text Event → Option Kind → Prop}
  {tr : List (SysLabel Text Event)} {l : SysLabel Text Event} {w w' : World Text Event}
  {k : Nat} {ds : Nat → Progress}

theorem Duty.works_after {d : Duty} {c : Cmd Text Event} {r : c.Answer} {id : String}
    (hc : ∀ p τ n, c ≠ .acquireLock p τ n) (h : (d.after c r).works id = true) :
    d.works id = true := by
  cases c with
  | acquireLock p τ n => exact absurd rfl (hc p τ n)
  | brpop =>
    rcases r with e | _ | x
    · cases h
    · cases h
    · cases h
  | evalRelease p τ =>
    cases r with
    | ok _ => cases h
    | error e => exact h
  | _ => exact h

theorem sight_answer {c : Cmd Text Event} {r : c.Answer}
    (ha : (orchestrator Text S sp ex).Answer k c r w w' l) (i : Nat) : sight i (l :: tr) =
      if k = i then (sight i tr).map (glimpse · c r) else sight i tr := by
  cases ha <;> rfl

theorem duty_answer {c : Cmd Text Event} {r : c.Answer}
    (ha : (orchestrator Text S sp ex).Answer k c r w w' l) (j : Nat) :
    (duty Text Event).read j (l :: tr) = if k = j then ((duty Text Event).read j tr).after c r
      else (duty Text Event).read j tr := by
  cases ha <;> rfl

theorem overtaken_answer {c : Cmd Text Event} {r : c.Answer}
    (ha : (orchestrator Text S sp ex).Answer k c r w w' l) (i : Nat) (id : String) :
    overtaken i id (l :: tr) = (!(k = i && c.isGet) &&
      (overtaken i id tr || c.isSet id && ((duty Text Event).read k tr).works id)) := by
  cases ha <;> rfl

theorem sender_answer {c : Cmd Text Event} {r : c.Answer}
    (ha : (orchestrator Text S sp ex).Answer k c r w w' l) : sender l = some (k, c) := by
  cases ha <;> rfl

theorem Clear.step (h : Clear tr)
    (hs : ∀ i ts t, sight i (l :: tr) = some ts → t ∈ ts →
      (∃ ts₀, sight i tr = some ts₀ ∧ t ∈ ts₀) ∨
      Idle tr t.taskId ∧ overtaken i t.taskId (l :: tr) = false)
    (hw : ∀ j id, ((duty Text Event).read j (l :: tr)).works id = true →
      ((duty Text Event).read j tr).works id = true ∨ Unread (l :: tr) id)
    (ho : ∀ i id, overtaken i id (l :: tr) = true → overtaken i id tr = true ∨
      ∃ j, ((duty Text Event).read j tr).works id = true) : Clear (l :: tr) := by
  intro i ts hts t ht
  have hidle (hn : Idle tr t.taskId) : Idle (l :: tr) t.taskId := by
    refine fun j => Bool.eq_false_iff.2 fun hj => ?_
    rcases hw j _ hj with hj | hj
    · cases (hn j).symm.trans hj
    · exact hj i ts hts t ht rfl
  rcases hs i ts t hts ht with ⟨ts₀, hts₀, ht₀⟩ | ⟨hn, hov⟩
  · obtain ⟨hn, hov⟩ := h i ts₀ hts₀ t ht₀
    refine ⟨hidle hn, Bool.eq_false_iff.2 fun hi => ?_⟩
    rcases ho i _ hi with hi | ⟨j, hj⟩
    · cases hov.symm.trans hi
    · cases (hn j).symm.trans hj
  · exact ⟨hidle hn, hov⟩

theorem overtaken_of_answer {c : Cmd Text Event} {r : c.Answer}
    (ha : (orchestrator Text S sp ex).Answer k c r w w' l) {i : Nat} {id : String}
    (h : overtaken i id (l :: tr) = true) : overtaken i id tr = true ∨
      ∃ j, ((duty Text Event).read j tr).works id = true := by
  rw [overtaken_answer ha] at h
  rcases Bool.or_eq_true_iff.1 (Bool.and_eq_true_iff.1 h).2 with h | h
  · exact .inl h
  · exact .inr ⟨k, (Bool.and_eq_true_iff.1 h).2⟩

/-- A command by which nothing new is read. -/
theorem sight_of_answer {c : Cmd Text Event} {r : c.Answer}
    (ha : (orchestrator Text S sp ex).Answer k c r w w' l) (hc : c.isGet = false) {i : Nat}
    {ts : List Task} {t : Task} (h : sight i (l :: tr) = some ts) (ht : t ∈ ts) :
    ∃ ts₀, sight i tr = some ts₀ ∧ t ∈ ts₀ := by
  rw [sight_answer ha] at h
  split at h
  · obtain ⟨ts₀, hts₀, rfl⟩ := Option.map_eq_some_iff.1 h
    refine ⟨ts₀, hts₀, ?_⟩
    cases c with
    | get id => cases hc
    | lpush x => cases ht
    | _ => exact ht
  · exact ⟨ts, h, ht⟩

theorem works_of_answer {c : Cmd Text Event} {r : c.Answer}
    (ha : (orchestrator Text S sp ex).Answer k c r w w' l)
    (hc : ∀ p τ n, c ≠ .acquireLock p τ n) {j : Nat} {id : String}
    (h : ((duty Text Event).read j (l :: tr)).works id = true) :
    ((duty Text Event).read j tr).works id = true := by
  rw [duty_answer ha] at h
  split at h
  · exact Duty.works_after hc h
  · exact h

theorem Clear.answer {c : Cmd Text Event} {r : c.Answer} (h : Clear tr)
    (ha : (orchestrator Text S sp ex).Answer k c r w w' l) (hok : undisturbed tr w l w') :
    Clear (l :: tr) := by
  cases c with
  | get key =>
    refine h.step (fun i ts t hts ht => ?_)
      (fun j id hj => .inl (works_of_answer ha (fun _ _ _ => by simp) hj))
      fun i id hi => overtaken_of_answer ha hi
    rw [sight_answer ha] at hts
    split at hts
    · rename_i hki
      subst hki
      obtain ⟨ts₀, hts₀, rfl⟩ := Option.map_eq_some_iff.1 hts
      have hov : overtaken k t.taskId (l :: tr) = false := by
        rw [overtaken_answer ha]
        simp only [Cmd.isGet, decide_true, Bool.and_self, Bool.not_true, Bool.false_and]
      cases ha with
      | abort hx =>
        obtain ⟨e, rfl, _⟩ := hx
        exact .inl ⟨ts₀, hts₀, ht⟩
      | cmd hx =>
        rcases r with e | _ | x
        · exact .inl ⟨ts₀, hts₀, ht⟩
        · exact .inl ⟨ts₀, hts₀, ht⟩
        · simp only [glimpse] at ht
          cases hp : parse x with
          | none =>
            rw [hp] at ht
            exact .inl ⟨ts₀, hts₀, ht⟩
          | some u =>
            rw [hp, Option.elim_some] at ht
            split at ht
            · exact .inl ⟨ts₀, hts₀, ht⟩
            · rename_i hu
              rcases List.mem_cons.1 ht with rfl | ht
              · have ho : (sight k tr).isSome = true := by
                  rw [hts₀]
                  rfl
                exact .inr ⟨hok.1 (k, x) rfl ho t hp (Bool.eq_false_iff.2 hu), hov⟩
              · exact .inl ⟨ts₀, hts₀, ht⟩
    · exact .inl ⟨ts, hts, ht⟩
  | acquireLock p τ n =>
    refine h.step (fun i ts t hts ht => .inl (sight_of_answer ha rfl hts ht))
      (fun j id hj => ?_) fun i id hi => overtaken_of_answer ha hi
    rw [duty_answer ha] at hj
    split at hj
    · rename_i hkj
      subst hkj
      rcases r with e | _ | _
      · exact .inl hj
      · exact .inl hj
      · cases ha with
        | abort hx =>
          obtain ⟨_, he, _⟩ := hx
          cases he
        | cmd hx =>
          refine .inr fun i ts hts u hu => ?_
          obtain ⟨t, ht, hid⟩ := (Option.any_eq_true _ _).1 (Bool.and_eq_true_iff.1 hj).2
          obtain rfl := of_decide_eq_true hid
          obtain ⟨ts₀, hts₀, hu₀⟩ := sight_of_answer (.cmd hx) rfl hts hu
          exact hok.2 k rfl t ht i ts₀ hts₀ u hu₀
    · exact .inl hj
  | _ =>
    exact h.step (fun i ts t hts ht => .inl (sight_of_answer ha rfl hts ht))
      (fun j id hj => .inl (works_of_answer ha (fun _ _ _ => by simp) hj))
      fun i id hi => overtaken_of_answer ha hi

/-- What a recovery has in hand is among what it has read. -/
def Progress.Sees : Progress → Option (List Task) → Prop
  | .scanning, o => o.isSome = true
  | .read t, o => ∃ ts, o = some ts ∧ t ∈ ts
  | .marked u, o => ∃ ts, o = some ts ∧ ∃ t ∈ ts, t.taskId = u.taskId
  | _, o => o = none

theorem Progress.sees_entry (q : Kind) :
    q.entry.Sees (sight k (.spawn k q :: tr : List (SysLabel Text Event))) := by
  cases q <;> simp only [sight, ↓reduceIte] <;> rfl

theorem Progress.Sees.keep {d : Progress} {c : Cmd Text Event} {r : c.Answer}
    {o : Option (List Task)}
    (h : d.Sees o) (hc : c.background = true) : d.Sees (o.map (glimpse · c r)) := by
  have hmem {ts : List Task} {t : Task} (ht : t ∈ ts) : t ∈ glimpse ts c r := by
    cases c with
    | lpush x => cases hc
    | get id =>
      rcases r with e | _ | x
      · exact ht
      · exact ht
      · simp only [glimpse]
        cases parse x with
        | none => exact ht
        | some u =>
          rw [Option.elim_some]
          split
          · exact ht
          · exact List.mem_cons_of_mem u ht
    | _ => exact ht
  cases d with
  | scanning => exact Option.isSome_map.trans h
  | read t =>
    obtain ⟨ts, rfl, ht⟩ := h
    exact ⟨_, rfl, hmem ht⟩
  | marked u =>
    obtain ⟨ts, rfl, t, ht, hid⟩ := h
    exact ⟨_, rfl, t, hmem ht, hid⟩
  | _ => exact Option.map_eq_none_iff.2 h

theorem Progress.Sees.move {d d' : Progress} {c : Cmd Text Event} {r : c.Answer}
    {o : Option (List Task)} (h : d.Sees o) (hm : Move S d c r d') :
    d'.Sees (o.map (glimpse · c r)) := by
  cases d with
  | scanning =>
    cases hm with
    | background hc => exact h.keep hc
    | read hx ht =>
      obtain ⟨ts, rfl⟩ := Option.isSome_iff_exists.1 h
      refine ⟨_, rfl, ?_⟩
      simp only [glimpse, hx, Option.elim_some, ht, Bool.false_eq_true, ↓reduceIte]
      exact List.mem_cons_self
  | read t =>
    obtain ⟨ts, rfl, ht⟩ := h
    cases hm with
    | background hc => exact Sees.keep (d := .read t) ⟨ts, rfl, ht⟩ hc
    | mark _ hu _ =>
      rename_i r _ _
      cases r with
      | ok _ => exact ⟨_, rfl, t, ht, hu.1.1.symm⟩
      | error _ => exact rfl
    | requeue _ => exact rfl
  | marked u =>
    cases hm with
    | background hc => exact h.keep hc
    | requeueMarked =>
      obtain ⟨ts, rfl, _⟩ := h
      exact rfl
  | _ =>
    obtain rfl : o = none := h
    have hs := hm.stage
    cases d' with
    | scanning | read _ | marked _ => cases hs
    | _ => exact rfl

theorem hands_of_background {c : Cmd Text Event} (hc : c.background = true) : c.hands = none := by
  cases c with
  | set _ _ | lpush _ => cases hc
  | _ => rfl

theorem Progress.Sees.hands {d d' : Progress} {c : Cmd Text Event} {r : c.Answer}
    {o : Option (List Task)} {id : String} (h : d.Sees o) (ho : o.isSome = true)
    (hm : Move S d c r d') (hc : c.hands = some id) :
    ∃ ts t, o = some ts ∧ t ∈ ts ∧ t.taskId = id := by
  have hback (hb : c.background = true) : False := by
    cases (hands_of_background hb).symm.trans hc
  have hdump {v : Task} (hv : (Cmd.lpush (modelDumpJson v) : Cmd Text Event).hands = some id) :
      v.taskId = id := by
    rw [Cmd.hands, parse_dump] at hv
    exact Option.some.inj hv
  cases d with
  | scanning =>
    cases hm with
    | background hb => exact (hback hb).elim
    | read _ _ => cases hc
  | read t =>
    obtain ⟨ts, rfl, ht⟩ := h
    cases hm with
    | background hb => exact (hback hb).elim
    | mark _ hu _ => exact ⟨ts, t, rfl, ht, hu.1.1.symm.trans (Option.some.inj hc)⟩
    | requeue _ => exact ⟨ts, t, rfl, ht, hdump hc⟩
  | marked v =>
    obtain ⟨ts, rfl, t, ht, hid⟩ := h
    cases hm with
    | background hb => exact (hback hb).elim
    | requeueMarked => exact ⟨ts, t, rfl, ht, hid.trans (hdump hc)⟩
  | _ =>
    obtain rfl : o = none := h
    cases ho

/-- What is known in runs that disturb no recovery. -/
def sparing (Text : Type) [TaskJson Text] (S : Setup Event) :
    Assertion (replicas Text S) Progress where
  ok := undisturbed
  inv tr _ ds := (∀ i, (ds i).Sees (sight i tr)) ∧ Clear tr ∧ Spared tr
  guar _ _ _ := True

theorem spared_of_none (h : sender l = none) : Spared (l :: tr) := by
  intro i c id hs
  cases h.symm.trans hs

theorem spared_answer {c : Cmd Text Event} {r : c.Answer} {d : Progress}
    (hs : ∀ i, (ds i).Sees (sight i tr)) (hc : Clear tr)
    (ha : (orchestrator Text S sp ex).Answer k c r w w' l) (hm : Move S (ds k) c r d) :
    Spared (l :: tr) := by
  intro i c' id hl ho hid
  obtain ⟨rfl, rfl⟩ := Prod.mk.inj (Option.some.inj ((sender_answer ha).symm.trans hl))
  obtain ⟨ts, t, hts, ht, rfl⟩ := (hs k).hands ho hm hid
  obtain ⟨hn, hov⟩ := hc k ts hts t ht
  exact ⟨hov, hn⟩

theorem Clear.spawn (h : Clear tr) (i : Nat) (q : Kind) :
    Clear (.spawn i q :: tr : List (SysLabel Text Event)) := by
  refine h.step (fun j ts t hts ht => .inl ?_) (fun j id hj => .inl ?_) fun _ _ ho => .inl ho
  · cases q with
    | recover =>
      simp only [sight] at hts
      split at hts
      · cases hts
        cases ht
      · exact ⟨ts, hts, ht⟩
    | worker | request _ =>
      simp only [sight] at hts
      split at hts
      · cases hts
      · exact ⟨ts, hts, ht⟩
  · simp only [Monitor.read] at hj
    split at hj
    · cases hj
    · exact hj

theorem Clear.exit (h : Clear tr) (i : Nat) (q : Kind) (b : Except Exc Returned) :
    Clear (.exit i q b :: tr : List (SysLabel Text Event)) := by
  refine h.step (fun j ts t hts ht => .inl ?_) (fun j id hj => .inl ?_) fun _ _ ho => .inl ho
  · simp only [sight] at hts
    split at hts
    · cases hts
    · exact ⟨ts, hts, ht⟩
  · simp only [Monitor.read] at hj
    split at hj
    · cases hj
    · exact hj

theorem sparing_tracked (w₀ : World Text Event) : Tracked (sparing Text S) w₀ where
  start := ⟨fun _ => rfl, fun i ts h => (by cases h), trivial⟩
  move tr w ds i c r w' l d hi ha hok hm := by
    obtain ⟨hs, hc, _⟩ := hi
    refine ⟨trivial, fun j => ?_, hc.answer ha hok, spared_answer hs hc ha hm⟩
    rw [sight_answer ha]
    by_cases hij : i = j
    · subst hij
      rw [if_pos rfl, Function.update_self]
      exact (hs i).move hm
    · rw [if_neg hij, Function.update_of_ne (Ne.symm hij)]
      exact hs j
  spawn tr w ds i q w' hi _ _ _ := by
    obtain ⟨hs, hc, _⟩ := hi
    refine ⟨trivial, fun j => ?_, hc.spawn i q, spared_of_none rfl⟩
    by_cases hij : i = j
    · subst hij
      rw [Function.update_self]
      exact sees_entry q
    · rw [Function.update_of_ne (Ne.symm hij)]
      cases q <;> simp only [sight, hij, ↓reduceIte] <;> exact hs j
  exit tr w ds i q b w' o hi hd he _ := by
    obtain ⟨hs, hc, _⟩ := hi
    refine ⟨trivial, fun j => ?_, hc.exit i q b, spared_of_none rfl⟩
    rw [sight]
    by_cases hij : i = j
    · subst hij
      rw [if_pos rfl, Function.update_self]
      rcases he.2 with rfl | ⟨rfl, _, rfl⟩
      · exact rfl
      · exact rfl
    · rw [if_neg hij, Function.update_of_ne (Ne.symm hij)]
      exact hs j
  env tr w ds e w' hi _ _ := by
    obtain ⟨hs, hc, _⟩ := hi
    exact ⟨trivial, hs, hc, spared_of_none rfl⟩
  halt tr w ds w' _ _ _ := ⟨trivial, fun _ => rfl, fun i ts h => (by cases h), spared_of_none rfl⟩

/-- From every state of Redis: as long as no worker executes a task that a recovery has read and
not yet put back, the recovery spares it. -/
theorem replica_law {w₀ : World Text Event} {s s' : SysConfig Text Event}
    (hr : Run (replicas Text S) undisturbed (.idle w₀) tr s) (hs : (replicas Text S).Step s l s')
    (hok : undisturbed tr s.world l s'.world) : Spares tr s.world l := by
  have hA : Tracked (sparing Text S) w₀ := sparing_tracked w₀
  obtain ⟨ds, _, _, h⟩ := hA.sound.inv (.cons hr hs hok)
  refine ⟨fun i id x hl ho => ?_, fun i x t hl ho hx j => ?_⟩
  · obtain ⟨hov, hn⟩ := h i _ id hl ho rfl
    refine ⟨hov, fun j hj => ?_⟩
    cases (hn j).symm.trans hj
  · have hid : (Cmd.lpush x : Cmd Text Event).hands = some t.taskId := by
      rw [Cmd.hands, hx]
      rfl
    refine Bool.eq_false_iff.2 fun hg => ?_
    cases ((h i _ t.taskId hl ho hid).2 j).symm.trans (Duty.works_of_grips hg)

end

/-- A worker whose turn is over is not stopped. -/
def nextLeave (q : Kind) (b : Except Exc Returned) : Option Kind :=
  match q, b with
  | .worker, .ok _ => some .worker
  | _, _ => none

/-- Replicas run by a schedule. -/
def replicaDriver : Driver (replicas Task demo) (Hint String) where
  cmd := demoDriver.cmd
  abort := demoDriver.abort
  spawn _ w := some w
  exit q b w := some (w, nextLeave q b)
  env := demoDriver.env
  halt := demoDriver.halt
  cmd_exec := demoDriver.cmd_exec
  abort_abort := demoDriver.abort_abort
  spawn_spawn := by
    intro q w w' h
    exact (Option.some.inj h).symm
  exit_exit := by
    intro q b w w' o h
    obtain ⟨rfl, rfl⟩ := Prod.mk.inj (Option.some.inj h)
    refine ⟨rfl, ?_⟩
    cases q with
    | worker =>
      cases b with
      | ok _ => exact .inr ⟨rfl, rfl, rfl⟩
      | error _ => exact .inl rfl
    | recover | request _ => exact .inl rfl
  env_env := demoDriver.env_env
  halt_halt := demoDriver.halt_halt

/-- A worker is streaming a task in one replica. -/
def streamingWorker : Schedule :=
  create 1 ++ [.spawn 2 .worker] ++ turnToStream 2 0

/-- The recovery of a replica that starts reads the record, the worker writes its success, and the
recovery writes. -/
def lateRecovery : Schedule :=
  streamingWorker ++ [.spawn 3 .recover] ++ go 3 3 ++ go 2 3 ++ go 3 1

/-- The replica stops before, and its lock expires. -/
def timelyRecovery : Schedule :=
  streamingWorker ++ [.halt, .env (.expire "p"), .spawn 3 .recover] ++ go 3 4

/-- The status that the latest step has stored, whether a recovery has taken it, and whether a
worker has written the record since it was read. -/
def latestMark : List (SysLabel Task String) → Option (TaskStatus × Bool × Bool)
  | [] => none
  | l :: tr => (sender l).bind fun p => match p.2 with
    | .set id x => (parse x).map fun t => (t.status, (sight p.1 tr).isSome, overtaken p.1 id tr)
    | _ => none

theorem latestMark_eq {tr : List (SysLabel Task String)} {st : TaskStatus} {b b' : Bool}
    (h : latestMark tr = some (st, b, b')) : ∃ l tr' i id x t, tr = l :: tr' ∧
      sender l = some (i, .set id x) ∧ (parse x : Option Task) = some t ∧ t.status = st ∧
      (sight i tr').isSome = b ∧ overtaken i id tr' = b' := by
  cases tr with
  | nil => cases h
  | cons l tr =>
    obtain ⟨⟨i, c⟩, hl, h⟩ := Option.bind_eq_some_iff.1 h
    cases c with
    | set id x =>
      obtain ⟨t, hx, h⟩ := Option.map_eq_some_iff.1 h
      obtain ⟨hst, h⟩ := Prod.mk.inj h
      obtain ⟨hs, ho⟩ := Prod.mk.inj h
      exact ⟨l, tr, i, id, x, t, rfl, hl, hx, hst, hs, ho⟩
    | _ => cases h

theorem replica_law_timely : ∃ tr s l s' i id x t,
    Run (replicas Task demo) undisturbed (.idle .init) tr s ∧ (replicas Task demo).Step s l s' ∧
    sender l = some (i, .set id x) ∧ parse x = some t ∧ t.status = .interrupted ∧
    (sight i tr).isSome = true ∧ Spares tr s.world l := by
  obtain ⟨tr, s', hr, hm⟩ := replicaDriver.drive_observe undisturbed (.idle .init) timelyRecovery
    (fun o => latestMark o.1) (show _ = some (TaskStatus.interrupted, true, false) by decide)
  obtain ⟨l, tr, i, id, x, t, rfl, hl, hx, hst, hs, _⟩ := latestMark_eq hm
  cases hr with
  | cons hr hstep hok =>
    exact ⟨tr, _, l, s', i, id, x, t, hr, hstep, hl, hx, hst, hs, replica_law hr hstep hok⟩

theorem not_replica_law : ¬∀ tr s l s', Run (replicas Task demo) anyway (.idle .init) tr s →
    (replicas Task demo).Step s l s' → Spares tr s.world l := by
  intro h
  obtain ⟨tr, s', hr, hm⟩ := replicaDriver.drive_observe anyway (.idle .init) lateRecovery
    (fun o => latestMark o.1) (show _ = some (TaskStatus.interrupted, true, true) by decide)
  obtain ⟨l, tr, i, id, x, t, rfl, hl, _, _, hs, ho⟩ := latestMark_eq hm
  cases hr with
  | cons hr hstep hok =>
    have hsp := h tr _ l s' hr hstep
    cases ((hsp.record i id x hl hs).1).symm.trans ho

end Orchestrator
