import Orchestrator.Concurrency.Eval
import Orchestrator.Footprint
import Orchestrator.Frame
import Orchestrator.Schedule

namespace Orchestrator
open Concurrency Async
set_option autoImplicit true

/-- A complete scan leaves no task out. -/
theorem mem_taskKeys {r : Redis Text} {pages : List (Nat × List ScanKey)}
    (h : CompleteScan r pages) {id : String} (hid : id ∈ r.tasks.keys) : id ∈ taskKeys pages := by
  obtain ⟨⟨before, keys, rfl, hb⟩, hc⟩ := h
  obtain ⟨page, hp, hm⟩ := hc id hid
  clear hc
  have hkey : id ∈ page.2.filterMap ScanKey.taskId := List.mem_filterMap.2 ⟨_, hm, rfl⟩
  induction before with
  | nil =>
    cases List.mem_singleton.1 hp
    exact hkey
  | cons first before ih =>
    have hfirst : first.1 ≠ 0 := hb first List.mem_cons_self
    rw [List.cons_append, taskKeys, if_neg hfirst]
    rcases List.mem_cons.1 hp with rfl | hp
    · exact List.mem_append_left _ hkey
    · exact List.mem_append_right _ (ih (fun q hq => hb q (List.mem_cons_of_mem _ hq)) hp)

variable [TaskJson Text] {S : Setup Event}

/-- Commands are carried out, and a scan replies with these pages. -/
def carriedOut (pages : List (Nat × List ScanKey)) (c : Cmd Text Event) (r : c.Answer)
    (w w' : World Text Event) : Prop :=
  exec c r w w' ∧ match c, r with
    | .scan, r => r = .ok pages
    | _, _ => True

/-- The recovery runs alone, its scan gives `pages`, and it returns `n`. -/
def Recovers (S : Setup Event) (pages : List (Nat × List ScanKey)) (w : World Text Event)
    (n : Nat) (w' : World Text Event) : Prop :=
  (recoverStrandedTasks S ()).Eval (carriedOut pages) w (.ok n, ()) w'

/-- A turn of the loop: nothing to do, or a task goes into the queue as it is stored by then. -/
inductive Visit (id : String) : Redis Text → Redis Text → Option Task → Prop where
  | pass (r : Redis Text) (h : ∀ t, r.record id = some t → t.isTerminal = true) :
      Visit id r r none
  | again (r : Redis Text) (h : r.record id = some t) (hl : t.isTerminal = false)
      (hs : t.status ≠ .running) : Visit id r (r.lpush (modelDumpJson t)) (some t)
  | mend (r : Redis Text) (h : r.record id = some t) (hs : t.status = .running)
      (hu : u = t.transition now .interrupted "crash-recovery: worker lost during execution") :
      Visit id r ((r.set u.taskId (modelDumpJson u)).lpush (modelDumpJson u)) (some u)

theorem asyncUpdate_eval {t : Task} {s : σ} {w w' : World Text Event} {o : Except Exc Unit × σ}
    (ht : t.isTerminal = false)
    (h : (TaskStore.asyncUpdate S t s).Eval exec w o w') :
    o = (.ok (), s) ∧ w' = w.onRedis (·.set t.taskId (modelDumpJson t)) := by
  obtain ⟨r, s₁, w₁, hset, h⟩ := eval_bind.1 h
  obtain ⟨_, ⟨rfl, rfl⟩, hr⟩ := eval_call.1 hset
  cases hr
  simp only [ht, Bool.false_eq_true, false_and, ↓reduceIte] at h
  exact eval_pure.1 h

theorem enqueue_eval {t : Task} {s : σ} {w w' : World Text Event} {o : Except Exc Unit × σ}
    (h : (TaskQueue.enqueue t s).Eval exec w o w') :
    o = (.ok (), s) ∧ w' = w.onRedis (·.lpush (modelDumpJson t)) := by
  obtain ⟨_, ⟨rfl, rfl⟩, hr⟩ := eval_call.1 h
  exact ⟨hr, rfl⟩

theorem recoverKey_eval {id : String} {s : σ} {w w' : World Text Event} {o : Except Exc Bool × σ}
    (h : (recoverKey S id s).Eval exec w o w') :
    ∃ u, Visit id w.redis w'.redis u ∧ o = (.ok u.isSome, s) := by
  have hpass (hn : ∀ t, w.redis.record id = some t → t.isTerminal = true)
      (h : o = (.ok false, s) ∧ w' = w) :
      ∃ u, Visit id w.redis w'.redis u ∧ o = (.ok u.isSome, s) := by
    obtain ⟨rfl, rfl⟩ := h
    exact ⟨none, .pass _ hn, rfl⟩
  obtain ⟨r, s₁, w₁, hget, h⟩ := eval_bind.1 h
  obtain ⟨_, ⟨rfl, rfl⟩, hr⟩ := eval_call.1 hget
  cases hr
  cases hid : w₁.redis.tasks.lookup id with
  | none =>
    simp only [hid] at h
    refine hpass (fun t ht => ?_) (eval_pure.1 h)
    simp only [Redis.record, hid, Option.bind_none, reduceCtorEq] at ht
  | some raw =>
    simp only [hid] at h
    have hrec : w₁.redis.record id = parse raw := by
      simp only [Redis.record, hid, Option.bind_some]
    cases hp : modelValidateJson raw with
    | error msg =>
      simp only [hp] at h
      refine hpass (fun t ht => ?_) (eval_pure.1 h)
      rw [hrec, parse_eq_some, hp] at ht
      cases ht
    | ok t =>
      simp only [hp] at h
      have ht : w₁.redis.record id = some t := by rw [hrec, parse_eq_some, hp]
      cases hl : t.isTerminal with
      | true =>
        simp only [hl, ↓reduceIte] at h
        refine hpass (fun u hu => ?_) (eval_pure.1 h)
        rw [ht] at hu
        cases hu
        exact hl
      | false =>
        simp only [hl, Bool.false_eq_true, ↓reduceIte] at h
        split at h
        · rename_i hs
          obtain ⟨r, s₁, w₁, hnow, h⟩ := eval_bind.1 h
          obtain ⟨_, ⟨⟨now, rfl⟩, rfl⟩, hr⟩ := eval_call.1 hnow
          cases hr
          obtain ⟨r, s₁, w₁, hup, h⟩ := eval_bind.1 h
          obtain ⟨ho, rfl⟩ := asyncUpdate_eval rfl hup
          cases ho
          obtain ⟨r, s₁, w₁, hq, h⟩ := eval_bind.1 h
          obtain ⟨ho, rfl⟩ := enqueue_eval hq
          cases ho
          obtain ⟨rfl, rfl⟩ := eval_pure.1 h
          exact ⟨some _, .mend _ ht hs rfl, rfl⟩
        · rename_i hs
          obtain ⟨r, s₁, w₁, hq, h⟩ := eval_bind.1 h
          obtain ⟨ho, rfl⟩ := enqueue_eval hq
          cases ho
          obtain ⟨rfl, rfl⟩ := eval_pure.1 h
          exact ⟨some t, .again _ ht hl hs, rfl⟩

/-- The loop over the keys. The tasks it queues are listed latest first. -/
inductive Visits : List String → Redis Text → Redis Text → List Task → Prop where
  | nil (r : Redis Text) : Visits [] r r []
  | cons {id : String} (h : Visit id r r₁ u) (hv : Visits ids r₁ r₂ us) :
      Visits (id :: ids) r r₂ (us ++ u.toList)

theorem recoverKeys_eval {ids : List String} {k : Nat} {s : σ} {w w' : World Text Event}
    {o : Except Exc Nat × σ} (h : (recoverKeys S ids k s).Eval exec w o w') :
    ∃ us, Visits ids w.redis w'.redis us ∧ o = (.ok (k + us.length), s) := by
  induction ids generalizing k s w with
  | nil =>
    obtain ⟨rfl, rfl⟩ := eval_pure.1 h
    exact ⟨[], .nil _, rfl⟩
  | cons id ids ih =>
    obtain ⟨r, s₁, w₁, hkey, h⟩ := eval_bind.1 h
    obtain ⟨u, hv, ho⟩ := recoverKey_eval hkey
    cases ho
    obtain ⟨us, hvs, rfl⟩ := ih h
    refine ⟨us ++ u.toList, .cons hv hvs, ?_⟩
    cases u with
    | none => simp only [Option.isSome_none, Bool.false_eq_true, ↓reduceIte, Option.toList_none,
        List.append_nil]
    | some t =>
      simp only [Option.isSome_some, ↓reduceIte, Option.toList_some, List.length_append,
        List.length_singleton]
      rw [Nat.add_assoc, Nat.add_comm 1]

theorem recovers_visits {pages : List (Nat × List ScanKey)} {w w' : World Text Event} {n : Nat}
    (h : Recovers S pages w n w') : CompleteScan w.redis pages ∧
      ∃ us, Visits (taskKeys pages) w.redis w'.redis us ∧ n = us.length := by
  obtain ⟨r, s₁, w₁, hscan, h⟩ := eval_bind.1 h
  obtain ⟨a, ⟨⟨⟨ps, rfl, hps⟩, rfl⟩, hp⟩, hr⟩ := eval_call.1 hscan
  cases hr
  cases hp
  obtain ⟨us, hv, ho⟩ := recoverKeys_eval (h.mono fun _ _ _ _ hc => hc.1)
  simp only [Nat.zero_add, Prod.mk.injEq, Except.ok.injEq, and_true] at ho
  exact ⟨hps, us, hv, ho⟩

/-- Every record is stored under the id it carries. -/
def Redis.WellKeyed (r : Redis Text) : Prop := ∀ id t, r.record id = some t → t.taskId = id

/-- Is the record of this id one that recovery puts back? -/
def Redis.isLive (r : Redis Text) (id : String) : Bool := (r.record id).any fun t => !t.isTerminal

/-- The ids of the stored tasks that are not finished. -/
def Redis.live (r : Redis Text) : List String := r.tasks.keys.filter r.isLive

theorem isLive_iff {r : Redis Text} {id : String} :
    r.isLive id = true ↔ ∃ t, r.record id = some t ∧ t.isTerminal = false := by
  simp only [Redis.isLive, Option.any_eq_true, Bool.not_eq_eq_eq_not, Bool.not_true]

theorem isLive_congr {r r' : Redis Text} {id : String}
    (h : r'.tasks.lookup id = r.tasks.lookup id) : r'.isLive id = r.isLive id := by
  simp only [Redis.isLive, Redis.record, h]

theorem isLive_of_running {r : Redis Text} {id : String} (h : r.record id = some t)
    (hs : t.status = .running) : r.isLive id = true := by
  refine isLive_iff.2 ⟨t, h, ?_⟩
  simp only [Task.isTerminal, hs, TaskStatus.isTerminal]
  decide

theorem mem_live {r : Redis Text} {id : String} : id ∈ r.live ↔ r.isLive id = true := by
  refine List.mem_filter.trans ⟨fun h => h.2, fun h => ⟨?_, h⟩⟩
  obtain ⟨t, ht, _⟩ := isLive_iff.1 h
  exact Redis.mem_keys_of_record ht

/-- What a pass over `ids` does to Redis. It queues `us`. -/
structure Swept (ids : List String) (r r' : Redis Text) (us : List Task) : Prop where
  queue : r'.queue = us.map modelDumpJson ++ r.queue
  order : us.map Task.taskId = (ids.filter r.isLive).reverse
  stored : ∀ u ∈ us, r'.record u.taskId = some u ∧ u.isTerminal = false
  kept : ∀ id, r'.tasks.lookup id = r.tasks.lookup id ∨
    id ∈ ids ∧ (∃ t, r.record id = some t ∧ t.status = .running) ∧ r'.isLive id = true
  settled : ∀ id ∈ ids, ∀ t, r'.record id = some t → t.status ≠ .running
  keyed : r'.WellKeyed
  same : us = [] → r' = r

namespace Swept
variable {ids ids' : List String} {r r₁ r₂ : Redis Text} {us us' : List Task}

theorem nil (h : r.WellKeyed) : Swept [] r r [] where
  queue := rfl
  order := rfl
  stored _ hu := nomatch hu
  kept _ := .inl rfl
  settled _ hid := nomatch hid
  keyed := h
  same _ := rfl

theorem isLive (h : Swept ids r r₁ us) (id : String) : r₁.isLive id = r.isLive id := by
  rcases h.kept id with he | ⟨_, ⟨t, ht, hs⟩, hl⟩
  · exact isLive_congr he
  · rw [hl, isLive_of_running ht hs]

theorem mem (h : Swept ids r r₁ us) (hu : u ∈ us) : u.taskId ∈ ids := by
  have hm : u.taskId ∈ us.map Task.taskId := List.mem_map_of_mem hu
  rw [h.order, List.mem_reverse] at hm
  exact (List.mem_filter.1 hm).1

/-- A record that is not running stays as it is. -/
theorem lookup (h : Swept ids r r₁ us) {id : String}
    (hs : ∀ t, r.record id = some t → t.status ≠ .running) :
    r₁.tasks.lookup id = r.tasks.lookup id := by
  rcases h.kept id with he | ⟨_, ⟨t, ht, hr⟩, _⟩
  · exact he
  · exact absurd hr (hs t ht)

theorem record (h : Swept ids r r₁ us) {id : String}
    (hs : ∀ t, r.record id = some t → t.status ≠ .running) : r₁.record id = r.record id := by
  unfold Redis.record
  rw [h.lookup hs]

theorem append (h : Swept ids r r₁ us) (h' : Swept ids' r₁ r₂ us') :
    Swept (ids ++ ids') r r₂ (us' ++ us) where
  queue := by rw [h'.queue, h.queue, List.map_append, List.append_assoc]
  order := by
    have he : r₁.isLive = r.isLive := funext h.isLive
    rw [List.map_append, h'.order, h.order, he, List.filter_append, List.reverse_append]
  stored u hu := by
    rcases List.mem_append.1 hu with hu | hu
    · exact h'.stored u hu
    · obtain ⟨hr, hl⟩ := h.stored u hu
      rw [h'.record (h.settled _ (h.mem hu))]
      exact ⟨hr, hl⟩
  kept id := by
    rcases h.kept id with he | ⟨hm, hr, hl⟩
    · rcases h'.kept id with he' | ⟨hm', ⟨t, ht, hs⟩, hl'⟩
      · exact .inl (he'.trans he)
      · refine .inr ⟨List.mem_append_right _ hm', ⟨t, ?_, hs⟩, hl'⟩
        simpa only [Redis.record, he] using ht
    · refine .inr ⟨List.mem_append_left _ hm, hr, ?_⟩
      rw [h'.isLive, hl]
  settled id hid t ht := by
    rcases List.mem_append.1 hid with hid | hid
    · apply h.settled id hid t
      rwa [h'.record (h.settled id hid)] at ht
    · exact h'.settled id hid t ht
  keyed := h'.keyed
  same hus := by
    obtain ⟨hus', hus⟩ := List.append_eq_nil_iff.1 hus
    rw [h'.same hus', h.same hus]

end Swept

theorem Visit.swept {id : String} {r r' : Redis Text} {o : Option Task} (h : Visit id r r' o)
    (hk : r.WellKeyed) : Swept [id] r r' o.toList := by
  cases h with
  | pass _ h =>
    have hl : r.isLive id = false := by
      rw [Bool.eq_false_iff]
      intro hl
      obtain ⟨t, ht, hf⟩ := isLive_iff.1 hl
      rw [h t ht] at hf
      cases hf
    refine ⟨rfl, ?_, nofun, fun _ => .inl rfl, ?_, hk, fun _ => rfl⟩
    · simp only [List.filter_cons, hl, Bool.false_eq_true, ↓reduceIte, List.filter_nil,
        List.reverse_nil, Option.toList_none, List.map_nil]
    · rintro id' hid t ht hs
      cases List.mem_singleton.1 hid
      rw [isLive_of_running ht hs] at hl
      cases hl
  | @again t _ h hl hs =>
    have hlive : r.isLive id = true := isLive_iff.2 ⟨t, h, hl⟩
    refine ⟨rfl, ?_, ?_, fun _ => .inl rfl, ?_, hk, nofun⟩
    · simp only [List.filter_cons, hlive, ↓reduceIte, List.filter_nil, List.reverse_singleton,
        Option.toList_some, List.map_singleton, hk id t h]
    · rintro u hu
      cases List.mem_singleton.1 hu
      refine ⟨?_, hl⟩
      rw [hk id t h, Redis.record_lpush, h]
    · rintro id' hid u hu
      cases List.mem_singleton.1 hid
      rw [Redis.record_lpush, h] at hu
      cases hu
      exact hs
  | @mend t u now _ h hs hu =>
    have hid : u.taskId = id := by rw [hu, Task.transition_taskId, hk id t h]
    have hl : u.isTerminal = false := by rw [hu]; rfl
    have hrec : ((r.set u.taskId (modelDumpJson u)).lpush (modelDumpJson u)).record =
        Function.update r.record id (some u) := by
      rw [Redis.record_lpush, Redis.record_set_dump, hid]
    have hself : Function.update r.record id (some u) id = some u := Function.update_self ..
    refine ⟨rfl, ?_, ?_, ?_, ?_, ?_, nofun⟩
    · simp only [List.filter_cons, isLive_of_running h hs, ↓reduceIte, List.filter_nil,
        List.reverse_singleton, Option.toList_some, List.map_singleton, hid]
    · rintro v hv
      cases List.mem_singleton.1 hv
      rw [hrec, hid]
      exact ⟨hself, hl⟩
    · intro id'
      by_cases he : id' = id
      · subst he
        exact .inr ⟨List.mem_singleton_self _, ⟨t, h, hs⟩,
          isLive_iff.2 ⟨u, by rw [hrec, hself], hl⟩⟩
      · left
        rw [← hid] at he
        exact AList.lookup_insert_ne he
    · rintro id' hid' v hv
      cases List.mem_singleton.1 hid'
      rw [hrec, hself] at hv
      cases hv
      rw [hu]
      nofun
    · intro id' v hv
      rw [hrec] at hv
      by_cases he : id' = id
      · subst he
        rw [hself] at hv
        cases hv
        exact hid
      · rw [Function.update_of_ne he] at hv
        exact hk id' v hv

theorem Visits.swept {ids : List String} {r r' : Redis Text} {us : List Task}
    (h : Visits ids r r' us) (hk : r.WellKeyed) : Swept ids r r' us := by
  induction h with
  | nil r => exact .nil hk
  | cons h _ ih => exact (h.swept hk).append (ih (h.swept hk).keyed)

/-- What recovery has to make of `r`, where it returns `n`. -/
structure Recovered (r r' : Redis Text) (n : Nat) : Prop where
  once : ∀ id ∈ r.live, ∃ t, r'.record id = some t ∧ r'.queued.filter (·.taskId = id) = [t]
  settled : ∀ id t, r'.record id = some t → t.status ≠ .running
  added : ∃ us, r'.queued = us ++ r.queued ∧
    ∀ u ∈ us, u.isTerminal = false ∧ r'.isLive u.taskId = true
  terminal : ∀ id t, r.record id = some t → t.isTerminal = true →
    r'.tasks.lookup id = r.tasks.lookup id
  count : n = r.live.length

/-- Each live task comes up once in the keys, and is not in the queue yet. -/
def Due (ids : List String) (r : Redis Text) : Prop :=
  ∀ id ∈ r.live, ids.count id = 1 ∧ ∀ u ∈ r.queued, u.taskId ≠ id

section
variable {ids : List String} {r r' : Redis Text} {us : List Task}

theorem Swept.queued (h : Swept ids r r' us) : r'.queued = us ++ r.queued := by
  have hus : (us.map (modelDumpJson : Task → Text)).filterMap parse = us := by
    simp only [List.filterMap_map, Function.comp_def, parse_dump, List.filterMap_some]
  rw [Redis.queued, h.queue, List.filterMap_append, hus, Redis.queued]

theorem Swept.count (h : Swept ids r r' us) {id : String} (hl : r.isLive id = true) :
    (us.filter (·.taskId = id)).length = ids.count id := by
  have hf : (us.filter (·.taskId = id)).length = (us.map Task.taskId).count id := by
    rw [List.count_eq_countP, List.countP_map, List.countP_eq_length_filter]
    rfl
  rw [hf, h.order, List.count_reverse, List.count_filter hl]

theorem Swept.settled_all (h : Swept ids r r' us) (hc : ∀ id ∈ r.tasks.keys, id ∈ ids)
    {id : String} (ht : r'.record id = some t) : t.status ≠ .running := by
  rcases h.kept id with he | ⟨hm, _, _⟩
  · have hr : r.record id = some t := by simpa only [Redis.record, he] using ht
    exact h.settled id (hc id (Redis.mem_keys_of_record hr)) t ht
  · exact h.settled id hm t ht

theorem Swept.length (h : Swept ids r r' us) (hc : ∀ id ∈ r.tasks.keys, id ∈ ids)
    (hd : ∀ id ∈ r.live, ids.count id = 1) : us.length = r.live.length := by
  have hlen : us.length = (ids.filter r.isLive).length := by
    rw [← List.length_map (f := Task.taskId), h.order, List.length_reverse]
  rw [hlen]
  apply List.Perm.length_eq
  have hnd : (ids.filter r.isLive).Nodup := by
    rw [List.nodup_iff_count_le_one]
    intro id
    by_cases hl : r.isLive id = true
    · rw [List.count_filter hl, hd id (mem_live.2 hl)]
    · rw [List.count_eq_zero_of_not_mem fun hm => hl (List.mem_filter.1 hm).2]
      exact Nat.zero_le 1
  have hlive : r.live.Nodup := r.tasks.keys_nodup.filter _
  apply (List.perm_ext_iff_of_nodup hnd hlive).2
  intro id
  rw [mem_live, List.mem_filter]
  refine ⟨fun hm => hm.2, fun hl => ⟨?_, hl⟩⟩
  exact hc id (List.mem_filter.1 (mem_live.2 hl)).1

theorem Swept.recovered_iff (h : Swept ids r r' us) (hc : ∀ id ∈ r.tasks.keys, id ∈ ids) :
    Recovered r r' us.length ↔ Due ids r := by
  constructor
  · intro hr id hid
    have hl := mem_live.1 hid
    obtain ⟨t, _, ht⟩ := hr.once id hid
    have hlen := congrArg List.length ht
    rw [h.queued, List.filter_append, List.length_append, h.count hl, List.length_singleton]
      at hlen
    have hpos : 0 < ids.count id := List.count_pos_iff.2 (hc id (List.mem_filter.1 hid).1)
    refine ⟨by omega, fun u hu he => ?_⟩
    have hmem : u ∈ r.queued.filter (·.taskId = id) :=
      List.mem_filter.2 ⟨hu, decide_eq_true he⟩
    have := List.length_pos_of_mem hmem
    omega
  · intro hd
    refine ⟨fun id hid => ?_, fun id t ht => h.settled_all hc ht, ⟨us, h.queued, fun u hu => ?_⟩,
      fun id t ht hterm => h.lookup fun u hu hs => ?_, h.length hc fun id hid => (hd id hid).1⟩
    · obtain ⟨hcount, hnone⟩ := hd id hid
      have hempty : r.queued.filter (·.taskId = id) = [] := by
        rw [List.filter_eq_nil_iff]
        exact fun u hu he => hnone u hu (of_decide_eq_true he)
      obtain ⟨t, ht⟩ := List.length_eq_one_iff.1 ((h.count (mem_live.1 hid)).trans hcount)
      obtain ⟨hmem, he⟩ := List.mem_filter.1 (ht ▸ List.mem_singleton_self t)
      refine ⟨t, ?_, ?_⟩
      · rw [← of_decide_eq_true he]
        exact (h.stored t hmem).1
      · rw [h.queued, List.filter_append, ht, hempty, List.append_nil]
    · obtain ⟨hr, hl⟩ := h.stored u hu
      exact ⟨hl, isLive_iff.2 ⟨u, hr, hl⟩⟩
    · rw [ht] at hu
      cases hu
      simp only [Task.isTerminal, hs] at hterm
      cases hterm

end

theorem Recovers.swept {pages : List (Nat × List ScanKey)} {w w' : World Text Event} {n : Nat}
    (h : Recovers S pages w n w') (hk : w.redis.WellKeyed) :
    ∃ us, Swept (taskKeys pages) w.redis w'.redis us ∧
      (∀ id ∈ w.redis.tasks.keys, id ∈ taskKeys pages) ∧ n = us.length := by
  obtain ⟨hp, us, hv, hn⟩ := recovers_visits h
  exact ⟨us, hv.swept hk, fun _ => mem_taskKeys hp, hn⟩

theorem exec_requeue {c : Cmd Text Event} (hc : c.requeue) (w : World Text Event) :
    ∃ r w', exec c r w w' := by
  cases c with
  | now => exact ⟨.ok 0, w, ⟨0, rfl⟩, rfl⟩
  | get _ | set _ _ | delDigest _ | lpush _ => exact ⟨_, _, rfl, rfl⟩
  | _ => exact absurd hc.2 not_false

/-- Whatever a complete scan gives, the recovery comes to its end. -/
theorem exists_recovers {w : World Text Event} {pages : List (Nat × List ScanKey)}
    (h : CompleteScan w.redis pages) : ∃ n w', Recovers S pages w n w' := by
  obtain ⟨⟨o, s⟩, w', he⟩ := (asks_recoverKeys (taskKeys pages) 0 ()).exists_eval
    (E := fun c r w w' => carriedOut pages c r w w') (fun c hc w => by
      obtain ⟨r, w', hr⟩ := exec_requeue hc w
      refine ⟨r, w', hr, ?_⟩
      cases c with
      | scan => exact absurd hc.2 not_false
      | _ => trivial) w
  obtain ⟨us, _, ho⟩ := recoverKeys_eval (he.mono fun _ _ _ _ hc => hc.1)
  cases ho
  refine ⟨_, w', eval_bind.2 ⟨.ok pages, (), w, eval_call.2 ⟨.ok pages, ?_, rfl⟩, he⟩⟩
  exact ⟨⟨⟨pages, rfl, h⟩, rfl⟩, rfl⟩

/-- What the recovery is to do, a second run included. -/
structure RecoveryLaw (S : Setup Event) (w : World Text Event) (n : Nat)
    (w' : World Text Event) : Prop where
  first : Recovered w.redis w'.redis n
  second : ∀ pages n' w'', Recovers S pages w' n' w'' → w''.redis = w'.redis

/-- Any live task is queued again by a second run. -/
theorem recoveryLaw_iff {pages : List (Nat × List ScanKey)} {w w' : World Text Event} {n : Nat}
    (h : Recovers S pages w n w') (hk : w.redis.WellKeyed) :
    RecoveryLaw S w n w' ↔ w.redis.live = [] := by
  obtain ⟨us, hs, hc, rfl⟩ := h.swept hk
  constructor
  · intro hl
    rw [List.eq_nil_iff_forall_not_mem]
    intro id hid
    obtain ⟨n', w'', h'⟩ := exists_recovers (S := S) (completeScan_keys w'.redis)
    obtain ⟨us', hs', hc', _⟩ := h'.swept hs.keyed
    have hlive : w'.redis.isLive id = true := by rw [hs.isLive, mem_live.1 hid]
    have hne : us' ≠ [] := by
      rintro rfl
      have hcount := hs'.count hlive
      have hpos := List.count_pos_iff.2 (hc' id (List.mem_filter.1 (mem_live.2 hlive)).1)
      rw [← hcount] at hpos
      exact absurd hpos (Nat.lt_irrefl 0)
    have hq := hs'.queued
    rw [hl.second _ n' w'' h'] at hq
    exact hne (List.self_eq_append_left.1 hq)
  · intro hl
    have hnone {r : Redis Text} {ids : List String} {us : List Task} {r' : Redis Text}
        (hr : r.live = []) (hs : Swept ids r r' us) : us = [] := by
      have hf : ids.filter r.isLive = [] := by
        rw [List.filter_eq_nil_iff]
        intro id _ hid
        have := mem_live.2 hid
        rw [hr] at this
        cases this
      have := hs.order
      rw [hf] at this
      exact List.map_eq_nil_iff.1 this
    refine ⟨(hs.recovered_iff hc).2 fun id hid => ?_, fun pages' n' w'' h' => ?_⟩
    · rw [hl] at hid
      cases hid
    · obtain ⟨us', hs', _, _⟩ := h'.swept hs.keyed
      apply hs'.same
      apply hnone _ hs'
      rw [hs.same (hnone hl hs), hl]

theorem wellKeyed_congr {w w' : World Text Event} (h : SameTasks w w')
    (hk : w.redis.WellKeyed) : w'.redis.WellKeyed := by
  intro id t ht
  rw [h.record] at ht
  exact hk id t ht

theorem wellKeyed_set {r : Redis Text} (hk : r.WellKeyed) (t : Task) :
    (r.set t.taskId (modelDumpJson t)).WellKeyed := Redis.keyed_set_dump hk t

theorem wellKeyed_exec {c : Cmd Text Event} {r : c.Answer} {w w' : World Text Event}
    (hc : c.Tidy) (h : exec c r w w') (hk : w.redis.WellKeyed) : w'.redis.WellKeyed := by
  cases c with
  | setNx id x =>
    obtain ⟨t, rfl, rfl⟩ := hc
    simp only [exec] at h
    split at h <;> obtain ⟨_, rfl⟩ := h
    · exact hk
    · exact wellKeyed_set hk t
  | set id x =>
    obtain ⟨t, rfl, rfl⟩ := hc
    obtain ⟨_, rfl⟩ := h
    exact wellKeyed_set hk t
  | lpush x =>
    obtain ⟨_, rfl⟩ := h
    exact hk
  | brpop =>
    simp only [exec] at h
    split at h <;> obtain ⟨_, rfl⟩ := h <;> exact hk
  | _ => exact wellKeyed_congr (exec_quiet rfl h) hk

/-- Records stay under their ids in every run. -/
def keyed (Text : Type) [TaskJson Text] (S : Setup Event) : Assertion (system Text S) Unit where
  ok := anyway
  inv _ w _ := w.redis.WellKeyed
  guar _ _ _ := True

theorem keyed_body (i : Nat) (q : Kind) :
    Safe (keyed Text S) i (fun _ _ => True) ((system Text S).body q) () := by
  apply (Safe.of_within (tidy_body q) _).mono fun _ _ _ => trivial
  rintro c hc tr w ds l r w' hi - ha -
  refine ⟨trivial, ?_⟩
  cases ha with
  | cmd h => exact wellKeyed_exec hc h hi
  | abort h =>
    obtain ⟨_, _, _, rfl | ⟨a, h⟩⟩ := h
    · exact wellKeyed_congr (giveUp_quiet c w) hi
    · exact wellKeyed_exec hc h hi

theorem keyed_sound : (keyed Text S).Sound () (fun _ _ _ => True) World.init where
  start _ _ ht := nomatch ht
  spawn := by
    rintro tr w ds i q w' hi - hs -
    refine ⟨trivial, (), ?_, keyed_body i q⟩
    cases q <;> obtain ⟨_, rfl⟩ := hs <;> exact hi
  exit := by
    rintro tr w ds i q b w' o hi - he -
    have hw : w'.redis.WellKeyed := by
      cases q <;> cases b <;> obtain ⟨_, rfl⟩ := he <;> exact hi
    refine ⟨trivial, ?_⟩
    cases o with
    | none => exact hw
    | some q' => exact ⟨(), hw, keyed_body i q'⟩
  env := by
    rintro tr w ds e w' hi he -
    exact ⟨trivial, wellKeyed_congr (tick_quiet he) hi⟩
  halt := by
    rintro tr w ds w' hi rfl -
    exact ⟨trivial, hi⟩

theorem wellKeyed_of_run {tr : List (SysLabel Text Event)} {s : SysConfig Text Event}
    (hr : Run (system Text S) anyway (.idle .init) tr s) : s.world.redis.WellKeyed := by
  obtain ⟨_, h⟩ := (keyed_sound (S := S)).inv hr
  exact h

/-- In any world that a run leaves behind, the recovery keeps its law just when there is nothing
to recover. A first recovery does what it is to do just when the scan does not repeat a live
task and no live task is in the queue that was left. -/
theorem recovery_law {tr : List (SysLabel Text Event)} {s : SysConfig Text Event}
    {pages : List (Nat × List ScanKey)} {n : Nat} {w' : World Text Event}
    (hr : Run (system Text S) anyway (.idle .init) tr s) (h : Recovers S pages s.world n w') :
    (RecoveryLaw S s.world n w' ↔ s.world.redis.live = []) ∧
      (Recovered s.world.redis w'.redis n ↔ Due (taskKeys pages) s.world.redis) := by
  have hk := wellKeyed_of_run hr
  obtain ⟨us, hs, hc, rfl⟩ := h.swept hk
  exact ⟨recoveryLaw_iff h hk, hs.recovered_iff hc⟩

instance (ids : List String) (r : Redis Text) : Decidable (Due ids r) :=
  inferInstanceAs (Decidable (∀ id ∈ r.live, ids.count id = 1 ∧ ∀ u ∈ r.queued, u.taskId ≠ id))

/-- The scan that gives every key once, in one page. -/
def onePage (r : Redis Text) : List (Nat × List ScanKey) := [(0, r.tasks.keys.map .task)]

/-- A stop while a worker waits for its stream. -/
def stoppedInStream : Schedule :=
  start ++ create 1 ++ [.spawn 2 .worker] ++ turnToStream 2 0 ++ [.halt]

/-- A stop while the task is in the queue. -/
def stoppedQueued : Schedule := start ++ create 1 ++ [.halt]

theorem recovery_law_running : ∃ tr s n w', DemoRun anyway tr s ∧ s.world.stage = .stopped ∧
    s.world.redis.live ≠ [] ∧ Recovers demo (onePage s.world.redis) s.world n w' ∧
    Recovered s.world.redis w'.redis n := by
  obtain ⟨tr, s, hr, ho⟩ := demoDriver.drive_observe anyway (.idle .init) stoppedInStream
    (fun o => some (o.2.world.stage, decide (o.2.world.redis.live = []),
      decide (Due (taskKeys (onePage o.2.world.redis)) o.2.world.redis)))
    (show _ = some (.stopped, false, true) by decide)
  simp only [Option.some.injEq, Prod.mk.injEq, decide_eq_false_iff_not, decide_eq_true_eq] at ho
  obtain ⟨hstop, hlive, hdue⟩ := ho
  obtain ⟨n, w', h⟩ := exists_recovers (S := demo) (completeScan_keys s.world.redis)
  exact ⟨tr, s, n, w', hr, hstop, hlive, h, (recovery_law hr h).2.2 hdue⟩

/-- The queue survives the stop, so that a queued task is queued twice. -/
theorem not_recovery_law : ¬∀ tr s pages n w', DemoRun anyway tr s → s.world.stage = .stopped →
    Recovers demo pages s.world n w' → RecoveryLaw demo s.world n w' := by
  intro hall
  obtain ⟨tr, s, hr, ho⟩ := demoDriver.drive_observe anyway (.idle .init) stoppedQueued
    (fun o => some (o.2.world.stage,
      decide (Due (taskKeys (onePage o.2.world.redis)) o.2.world.redis)))
    (show _ = some (.stopped, false) by decide)
  simp only [Option.some.injEq, Prod.mk.injEq, decide_eq_false_iff_not] at ho
  obtain ⟨hstop, hdue⟩ := ho
  obtain ⟨n, w', h⟩ := exists_recovers (S := demo) (completeScan_keys s.world.redis)
  obtain ⟨us, hs, hc, rfl⟩ := h.swept (wellKeyed_of_run hr)
  exact hdue ((hs.recovered_iff hc).1 (hall tr s _ _ w' hr hstop h).first)

end Orchestrator
