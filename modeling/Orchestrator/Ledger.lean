import Orchestrator.Frame
import Orchestrator.Concurrency.Logic
import Orchestrator.Concurrency.Custody

namespace Orchestrator
open Concurrency Async
set_option autoImplicit true

def Live (t : Task) : Prop := t.isTerminal = false

def Ready (t : Task) : Prop := t.status = .pending ∨ t.status = .interrupted

theorem Ready.live (h : Ready t) : Live t := by
  unfold Live Task.isTerminal
  rcases h with h | h <;> rw [h] <;> rfl

section Notes
variable [TaskJson Text]

/-- What a label says about the task that process `i` has taken from the queue: nothing, or
that it has it now, or that it has it no longer. -/
def taken (i : Nat) : SysLabel Text Event → Option (Option String)
  | .cmd j .brpop (.ok (some x)) => if j = i then some ((parse x).map Task.taskId) else none
  | .cmd j (.lpush _) _ => if j = i then some none else none
  | .exit j _ _ => if j = i then some none else none
  | .halt => some none
  | _ => none

/-- The same for the task that process `i` has saved and not queued yet. -/
def saved (i : Nat) : SysLabel Text Event → Option (Option String)
  | .cmd j (.setNx id _) (.ok true) => if j = i then some (some id) else none
  | .cmd j (.lpush _) _ => if j = i then some none else none
  | .exit j _ _ => if j = i then some none else none
  | .halt => some none
  | _ => none

/-- The task that process `i` is executing after these steps. -/
def executing (i : Nat) : List (SysLabel Text Event) → Option String
  | [] => none
  | l :: tr => (taken i l).getD (executing i tr)

/-- The task whose `create_task` call in process `i` is between `save` and `enqueue`. -/
def creating (i : Nat) : List (SysLabel Text Event) → Option String
  | [] => none
  | l :: tr => (saved i l).getD (creating i tr)

def Silent (l : SysLabel Text Event) : Prop := ∀ i, taken i l = none ∧ saved i l = none

theorem silent_cmd {c : Cmd Text Event} (hc : c.quiet = true) (i : Nat) (r : c.Answer) :
    Silent (.cmd i c r : SysLabel Text Event) := by
  intro j
  cases c with
  | setNx _ _ | set _ _ | lpush _ | brpop => cases hc
  | _ => exact ⟨rfl, rfl⟩

theorem executing_silent {l : SysLabel Text Event} (h : Silent l) (i : Nat)
    (tr : List (SysLabel Text Event)) : executing i (l :: tr) = executing i tr := by
  simp only [executing, (h i).1, Option.getD_none]

theorem creating_silent {l : SysLabel Text Event} (h : Silent l) (i : Nat)
    (tr : List (SysLabel Text Event)) : creating i (l :: tr) = creating i tr := by
  simp only [creating, (h i).2, Option.getD_none]

/-- Only process `i` may take or save something with this label. -/
def Local (i : Nat) (l : SysLabel Text Event) : Prop :=
  ∀ j, j ≠ i → taken j l = none ∧ saved j l = none

theorem local_cmd (i : Nat) (c : Cmd Text Event) (r : c.Answer) :
    Local i (.cmd i c r : SysLabel Text Event) := by
  intro j h
  have h := Ne.symm h
  cases c with
  | setNx id x =>
    rcases r with e | b
    · exact ⟨rfl, rfl⟩
    · cases b <;> simp only [taken, saved, h, ↓reduceIte, and_self]
  | lpush x => simp only [taken, saved, h, ↓reduceIte, and_self]
  | brpop =>
    rcases r with e | x
    · exact ⟨rfl, rfl⟩
    · cases x <;> simp only [taken, saved, h, ↓reduceIte, and_self]
  | _ => exact ⟨rfl, rfl⟩

theorem local_exit (i : Nat) (q : Kind) (b : Except Exc Returned) :
    Local i (.exit i q b : SysLabel Text Event) := by
  intro j h
  simp only [taken, saved, Ne.symm h, ↓reduceIte, and_self]

theorem executing_local {l : SysLabel Text Event} {i j : Nat} (h : Local i l) (hji : j ≠ i)
    (tr : List (SysLabel Text Event)) : executing j (l :: tr) = executing j tr := by
  simp only [executing, (h j hji).1, Option.getD_none]

theorem creating_local {l : SysLabel Text Event} {i j : Nat} (h : Local i l) (hji : j ≠ i)
    (tr : List (SysLabel Text Event)) : creating j (l :: tr) = creating j tr := by
  simp only [creating, (h j hji).2, Option.getD_none]

end Notes

/-- The labels agree with who holds what. A process that executes a task it no longer owns has
finished it. -/
structure Linked [TaskJson Text] (tr : List (SysLabel Text Event)) (rec : String → Option Task)
    (own : Nat → Option Task) : Prop where
  owner : ∀ i t, own i = some t → executing i tr = some t.taskId ∨ creating i tr = some t.taskId
  holder : ∀ i id, executing i tr = some id →
    (∃ t, own i = some t ∧ t.taskId = id) ∨ ∃ t, rec id = some t ∧ t.isTerminal = true

/-- Who has which task. With faults `F` copies may be lost, but there are never two. With
crashes `B`, which are faults, the recovery may find tasks. -/
structure Ledger [TaskJson Text] (F B : Prop) (tr : List (SysLabel Text Event))
    (w : World Text Event) (own : Nat → Option Task) : Prop where
  custody : Custody Task.taskId Live Ready w.redis.record w.redis.queued own
  covered : F ∨ Covered Task.taskId Live w.redis.record w.redis.queued own
  linked : F ∨ Linked tr w.redis.record own
  fresh : B ∨ w.stage = .serving ∨ w.redis.tasks = ∅
  fault : B → F

namespace Ledger
variable [TaskJson Text] {F B : Prop} {tr : List (SysLabel Text Event)} {w w' : World Text Event}
  {own : Nat → Option Task} {l : SysLabel Text Event} {i : Nat}

theorem init (hB : B → F) : Ledger F B [] (World.init : World Text Event) fun _ => none := by
  have hr : (World.init : World Text Event).redis.record = fun _ => none := rfl
  constructor
  · rw [hr]
    exact .empty
  · rw [hr]
    exact .inr fun _ _ hv => nomatch hv
  · exact .inr ⟨fun _ _ hv => (nomatch hv), fun _ _ hv => (nomatch hv)⟩
  · exact .inr (.inr rfl)
  · exact hB

theorem restage (h : Ledger F B tr w own) (ht : w'.redis.record = w.redis.record)
    (hq : w'.redis.queued = w.redis.queued)
    (hf : B ∨ w'.stage = .serving ∨ w'.redis.tasks = ∅) (hl : F ∨ Silent l) :
    Ledger F B (l :: tr) w' own := by
  constructor
  · rw [ht, hq]
    exact h.custody
  · rw [ht, hq]
    exact h.covered
  · rw [ht]
    rcases hl with hF | hl
    · exact .inl hF
    · refine h.linked.imp_right fun hk => ⟨fun i t ht => ?_, fun i id hi => ?_⟩
      · rw [executing_silent hl, creating_silent hl]
        exact hk.owner i t ht
      · rw [executing_silent hl] at hi
        exact hk.holder i id hi
  · exact hf
  · exact h.fault

theorem same (h : Ledger F B tr w own) (hs : SameTasks w w') (hl : F ∨ Silent l) :
    Ledger F B (l :: tr) w' own := by
  apply h.restage hs.record hs.queued _ hl
  rw [hs.stage, hs.tasks]
  exact h.fresh

theorem serving_of_record {id : String} {t : Task} (h : Ledger F B tr w own)
    (hr : w.redis.record id = some t) :
    B ∨ w.stage = .serving := by
  refine h.fresh.imp_right fun hf => hf.resolve_right fun he => ?_
  simp only [Redis.record, he, AList.lookup_empty, Option.bind_none, reduceCtorEq] at hr

/-- An owned task is not a finished one. -/
theorem ne_of_owned {id : String} {t u v : Task} (h : Ledger F B tr w own) (hu : own i = some u)
    (hk : t.taskId = u.taskId) (hv : w.redis.record id = some v) (ht : v.isTerminal = true) :
    id ≠ t.taskId := by
  rintro rfl
  obtain ⟨hr, hlive, _⟩ := h.custody.owner i u hu
  rw [hk, hr] at hv
  cases hv
  rw [Live, ht] at hlive
  cases hlive

/-- A holder writes its record. It lets go of a task that it finishes. -/
theorem write {t u : Task} (h : Ledger F B tr w own) (hu : own i = some u)
    (hk : t.taskId = u.taskId) (hl : F ∨ Silent l) {o : Option Task}
    (ho : ∀ v, o = some v → v = t ∧ Live t) (hlive : Live t → o = some t) :
    Ledger F B (l :: tr) (w.onRedis (·.set t.taskId (modelDumpJson t)))
      (Function.update own i o) := by
  have hrec : (w.redis.set t.taskId (modelDumpJson t)).record =
      Function.update w.redis.record t.taskId (some t) := Redis.record_set_dump ..
  constructor
  · simp only [World.onRedis, hrec, Redis.queued_set]
    exact h.custody.write hu hk ho
  · simp only [World.onRedis, hrec, Redis.queued_set]
    refine h.covered.imp_right fun hc => hc.write (fun v hv => ?_) hlive
    rw [hu] at hv
    cases hv
    exact hk.symm
  · simp only [World.onRedis, hrec]
    rcases hl with hF | hl
    · exact .inl hF
    refine h.linked.imp_right fun hn => ⟨fun j v hv => ?_, fun j id hj => ?_⟩
    · rw [executing_silent hl, creating_silent hl]
      rcases update_eq_iff.1 hv with ⟨rfl, he⟩ | ⟨_, hv⟩
      · obtain ⟨rfl, _⟩ := ho v he
        rw [hk]
        exact hn.owner j u hu
      · exact hn.owner j v hv
    · rw [executing_silent hl] at hj
      rcases hn.holder j id hj with ⟨v, hv, rfl⟩ | ⟨v, hv, hterm⟩
      · by_cases hji : j = i
        · subst hji
          rw [hu] at hv
          cases hv
          cases ht : t.isTerminal with
          | true => exact .inr ⟨t, by rw [← hk, Function.update_self], ht⟩
          | false => exact .inl ⟨t, by rw [Function.update_self, hlive ht], hk⟩
        · exact .inl ⟨v, by rw [Function.update_of_ne hji, hv], rfl⟩
      · refine .inr ⟨v, ?_, hterm⟩
        rw [Function.update_of_ne (h.ne_of_owned hu hk hv hterm), hv]
  · exact (h.serving_of_record (h.custody.owned hu)).imp_right .inl
  · exact h.fault

/-- A new record begins in the hands of its creator. -/
theorem create {t : Task} (h : Ledger F B tr w own) (hi : own i = none)
    (hr : w.redis.record t.taskId = none) (ht : Live t) (hst : w.stage = .serving)
    (hl : F ∨ ∃ x, l = .cmd i (.setNx t.taskId x) (.ok true)) :
    Ledger F B (l :: tr) (w.onRedis (·.set t.taskId (modelDumpJson t)))
      (Function.update own i (some t)) := by
  have hrec : (w.redis.set t.taskId (modelDumpJson t)).record =
      Function.update w.redis.record t.taskId (some t) := Redis.record_set_dump ..
  constructor
  · simp only [World.onRedis, hrec, Redis.queued_set]
    exact h.custody.create hr ht
  · simp only [World.onRedis, hrec, Redis.queued_set]
    refine h.covered.imp_right fun hc => hc.write (fun v hv => ?_) fun _ => rfl
    rw [hi] at hv
    cases hv
  · simp only [World.onRedis, hrec]
    rcases hl with hF | ⟨x, rfl⟩
    · exact .inl hF
    have hloc := local_cmd i (.setNx t.taskId x : Cmd Text Event) (.ok true)
    refine h.linked.imp_right fun hn => ⟨fun j v hv => ?_, fun j id hj => ?_⟩
    · rcases update_eq_iff.1 hv with ⟨rfl, he⟩ | ⟨hji, hv⟩
      · cases he
        exact .inr (by simp only [creating, saved, ↓reduceIte, Option.getD_some])
      · rw [executing_local hloc hji, creating_local hloc hji]
        exact hn.owner j v hv
    · have hne : ∀ v, w.redis.record id = some v → id ≠ t.taskId := by
        rintro v hv rfl
        rw [hr] at hv
        cases hv
      rcases hn.holder j id hj with ⟨v, hv, rfl⟩ | ⟨v, hv, hterm⟩
      · have hji : j ≠ i := by
          rintro rfl
          rw [hi] at hv
          cases hv
        exact .inl ⟨v, by rw [Function.update_of_ne hji, hv], rfl⟩
      · exact .inr ⟨v, by rw [Function.update_of_ne (hne v hv), hv], hterm⟩
  · exact .inr (.inl hst)
  · exact h.fault

/-- A holder puts its task back into the queue. -/
theorem push {t : Task} (h : Ledger F B tr w own) (hi : own i = some t) (ht : Ready t)
    (hl : F ∨ ∃ x r, l = .cmd i (.lpush x) r) :
    Ledger F B (l :: tr) (w.onRedis (·.lpush (modelDumpJson t))) (Function.update own i none) := by
  constructor
  · simp only [World.onRedis, Redis.record_lpush, Redis.queued_lpush_dump]
    exact h.custody.push hi ht
  · simp only [World.onRedis, Redis.record_lpush, Redis.queued_lpush_dump]
    exact h.covered.imp_right fun hc => hc.push hi
  · simp only [World.onRedis, Redis.record_lpush]
    rcases hl with hF | ⟨x, r, rfl⟩
    · exact .inl hF
    have hloc := local_cmd i (.lpush x : Cmd Text Event) r
    refine h.linked.imp_right fun hn => ⟨fun j v hv => ?_, fun j id hj => ?_⟩
    · rcases update_eq_iff.1 hv with ⟨_, he⟩ | ⟨hji, hv⟩
      · cases he
      · rw [executing_local hloc hji, creating_local hloc hji]
        exact hn.owner j v hv
    · by_cases hji : j = i
      · subst hji
        simp only [executing, taken, ↓reduceIte, Option.getD_some, reduceCtorEq] at hj
      · rw [executing_local hloc hji] at hj
        rw [Function.update_of_ne hji]
        exact hn.holder j id hj
  · exact h.fresh
  · exact h.fault

/-- What comes out of the queue is in the hands of the process that took it. -/
theorem pop {x : Text} (h : Ledger F B tr w own) (hi : own i = none)
    (hx : w.redis.queue.getLast? = some x)
    (hl : F ∨ l = .cmd i .brpop (.ok (some x))) :
    Ledger F B (l :: tr) (w.onRedis fun q => { q with queue := q.queue.dropLast })
      (Function.update own i (parse x)) := by
  have hq := Redis.queued_getLast hx
  have hrec : ({ w.redis with queue := w.redis.queue.dropLast } : Redis Text).record =
      w.redis.record := rfl
  constructor
  · simp only [World.onRedis, hrec]
    have hc := h.custody
    rw [hq] at hc
    cases hp : parse x with
    | none =>
      rw [hp, Option.toList, List.append_nil] at hc
      exact hc.drop i
    | some t =>
      rw [hp, Option.toList] at hc
      exact hc.pop
  · simp only [World.onRedis, hrec]
    have hc := h.covered
    rw [hq] at hc
    refine hc.imp_right fun hc => ?_
    cases hp : parse x with
    | none =>
      rw [hp, Option.toList, List.append_nil] at hc
      rwa [← hi, Function.update_eq_self]
    | some t =>
      rw [hp, Option.toList] at hc
      exact hc.pop hi
  · simp only [World.onRedis, hrec]
    rcases hl with hF | rfl
    · exact .inl hF
    have hloc := local_cmd i (.brpop : Cmd Text Event) (.ok (some x))
    refine h.linked.imp_right fun hn => ⟨fun j v hv => ?_, fun j id hj => ?_⟩
    · rcases update_eq_iff.1 hv with ⟨rfl, he⟩ | ⟨hji, hv⟩
      · simp only [executing, taken, ↓reduceIte, he, Option.map_some, Option.getD_some, true_or]
      · rw [executing_local hloc hji, creating_local hloc hji]
        exact hn.owner j v hv
    · by_cases hji : j = i
      · subst hji
        simp only [executing, taken, ↓reduceIte, Option.getD_some] at hj
        obtain ⟨t, ht, rfl⟩ := Option.map_eq_some_iff.1 hj
        exact .inl ⟨t, by rw [Function.update_self, ht], rfl⟩
      · rw [executing_local hloc hji] at hj
        rw [Function.update_of_ne hji]
        exact hn.holder j id hj
  · exact h.fresh
  · exact h.fault

/-- A process ends. -/
theorem leave (h : Ledger F B tr w own) (hi : F ∨ own i = none) (hw : w'.redis = w.redis)
    (hf : B ∨ w'.stage = .serving ∨ w'.redis.tasks = ∅)
    (hl : F ∨ ∃ q b, l = .exit i q b) :
    Ledger F B (l :: tr) w' (Function.update own i none) := by
  constructor
  · rw [hw]
    exact h.custody.drop i
  · rw [hw]
    rcases hi with hF | hi
    · exact .inl hF
    · rw [← hi, Function.update_eq_self]
      exact h.covered
  · rw [hw]
    rcases hi with hF | hi
    · exact .inl hF
    rcases hl with hF | ⟨q, b, rfl⟩
    · exact .inl hF
    have hloc : Local i (.exit i q b : SysLabel Text Event) := local_exit i q b
    rw [← hi, Function.update_eq_self]
    refine h.linked.imp_right fun hn => ⟨fun j v hv => ?_, fun j id hj => ?_⟩
    · have hji : j ≠ i := by
        rintro rfl
        rw [hi] at hv
        cases hv
      rw [executing_local hloc hji, creating_local hloc hji]
      exact hn.owner j v hv
    · by_cases hji : j = i
      · subst hji
        simp only [executing, taken, ↓reduceIte, Option.getD_some, reduceCtorEq] at hj
      · rw [executing_local hloc hji] at hj
        exact hn.holder j id hj
  · exact hf
  · exact h.fault

/-- After a crash nobody holds anything. -/
theorem halt (h : Ledger F B tr w own) (hB : B) (hw : w'.redis = w.redis) :
    Ledger F B (l :: tr) w' fun _ => none := by
  constructor
  · rw [hw]
    exact h.custody.clear
  · exact .inl (h.fault hB)
  · exact .inl (h.fault hB)
  · exact .inl hB
  · exact h.fault

/-- The recovery writes a record that is nowhere else. -/
theorem rewrite {t u : Task} (h : Ledger F B tr w fun _ => none) (hB : B)
    (hu : w.redis.record t.taskId = some u)
    (hq : t.taskId ∉ w.redis.queued.map Task.taskId) :
    Ledger F B (l :: tr) (w.onRedis (·.set t.taskId (modelDumpJson t))) fun _ => none := by
  have hrec : (w.redis.set t.taskId (modelDumpJson t)).record =
      Function.update w.redis.record t.taskId (some t) := Redis.record_set_dump ..
  refine ⟨?_, .inl (h.fault hB), .inl (h.fault hB), .inl hB, h.fault⟩
  simp only [World.onRedis, hrec, Redis.queued_set]
  have hc := h.custody.rewrite (i := 0) (o := none) hu hq (fun _ _ hv => nomatch hv)
    fun _ hv => nomatch hv
  rwa [Function.update_eq_self] at hc

/-- The recovery queues a record that is nowhere else. -/
theorem requeue {t : Task} (h : Ledger F B tr w fun _ => none) (hB : B)
    (hr : w.redis.record t.taskId = some t) (ht : Ready t)
    (hq : t.taskId ∉ w.redis.queued.map Task.taskId) :
    Ledger F B (l :: tr) (w.onRedis (·.lpush (modelDumpJson t))) fun _ => none := by
  refine ⟨?_, .inl (h.fault hB), .inl (h.fault hB), .inl hB, h.fault⟩
  simp only [World.onRedis, Redis.record_lpush, Redis.queued_lpush_dump]
  exact h.custody.enqueue hr ht.live ht hq fun _ _ hv => nomatch hv

end Ledger

end Orchestrator
