import Orchestrator.Locks

namespace Orchestrator
open Concurrency Async
set_option autoImplicit true

/-- The thread consumes its iterator. -/
def Thread.consuming (th : Thread Event) : Bool :=
  match th.state with
  | .running => true
  | _ => false

/-- The thread may still consume its iterator. -/
def Thread.pending (th : Thread Event) : Bool :=
  match th.state with
  | .queued | .running => true
  | _ => false

/-- No two iterators of one project are being consumed. -/
def Exclusive (w : World Text Event) : Prop :=
  ∀ (n m : Nat) (th th' : Thread Event), w.threads[n]? = some th → w.threads[m]? = some th' →
    th.consuming = true → th'.consuming = true → th.projectName = th'.projectName → n = m

def consumer (w : World Text Event) (n : Nat) : Option (Bool × String) :=
  w.threads[n]?.map fun th => (th.consuming, th.projectName)

theorem not_exclusive_of_consumer {w : World Text Event} (h₀ : consumer w 0 = some (true, p))
    (h₁ : consumer w 1 = some (true, p)) : ¬Exclusive w := by
  intro hx
  obtain ⟨th, hn, hth⟩ := Option.map_eq_some_iff.1 h₀
  obtain ⟨th', hn', hth'⟩ := Option.map_eq_some_iff.1 h₁
  obtain ⟨hc, hp⟩ := Prod.mk.inj hth
  obtain ⟨hc', hp'⟩ := Prod.mk.inj hth'
  exact Nat.zero_ne_one (hx 0 1 th th' hn hn' hc hc' (hp.trans hp'.symm))

def Heartbeat.alive (hb : Heartbeat) : Bool :=
  match hb.state with
  | .ended _ => false
  | _ => true

/-- The project whose lock key expires. -/
def expiry : SysLabel Text Event → Option String
  | .env (.expire p) => some p
  | _ => none

/-- The thread whose wait ends before the thread does, or with an error of the thread. -/
def cutOff : SysLabel Text Event → Option Nat
  | .cmd _ (.awaitFuture n _) (.error _) | .abort _ (.awaitFuture n _) _ => some n
  | _ => none

/-- A lock key does not expire while the heartbeat of its holder is running. -/
def beating : Filter Text Event := fun _ w l _ =>
  ∀ p ∈ expiry l, ∀ lk ∈ w.redis.locks p, ∀ hb ∈ w.heartbeats lk.token, hb.alive = false

/-- The execution with this token has acquired its lock, and not come to its clean-up. -/
def underway (τ : String) : List (SysLabel Text Event) → Bool
  | [] => false
  | .cmd _ (.acquireLock _ σ _) (.ok true) :: tr => σ = τ || underway τ tr
  | .cmd _ (.cancelHeartbeat σ) _ :: tr => σ ≠ τ && underway τ tr
  | .halt :: _ => false
  | _ :: tr => underway τ tr

/-- A lock key does not expire while the execution that holds it is under way, and no wait for a
stream ends while its thread consumes the iterator. -/
def attended : Filter Text Event := fun tr w l _ =>
  (∀ p ∈ expiry l, ∀ lk ∈ w.redis.locks p, underway lk.token tr = false) ∧
    ∀ n ∈ cutOff l, ∀ th ∈ w.threads[n]?, th.consuming = false

/-- How far the execution in a process is, with its token. -/
inductive Course where
  | out
  | drawn (τ : String)
  | inside (p τ : String)
  | streaming (p τ : String) (n : Nat)

namespace Course

def token : Course → Option String
  | .out => none
  | .drawn τ | .inside _ τ | .streaming _ τ _ => some τ

/-- The lock that is held, with the token. -/
def lock : Course → Option (String × String)
  | .inside p τ | .streaming p τ _ => some (p, τ)
  | _ => none

def thread : Course → Option (String × Nat)
  | .streaming p _ n => some (p, n)
  | _ => none

theorem token_of_lock {d : Course} {p τ : String} (h : d.lock = some (p, τ)) :
    d.token = some τ := by
  cases d with
  | inside _ _ | streaming _ _ _ =>
    cases h
    rfl
  | _ => cases h

theorem lock_of_thread {d : Course} {p : String} {n : Nat} (h : d.thread = some (p, n)) :
    ∃ τ, d.lock = some (p, τ) := by
  cases d with
  | streaming _ _ _ =>
    cases h
    exact ⟨_, rfl⟩
  | _ => cases h

end Course

/-- Each execution under way has the lock of its project, and each thread that may consume an
iterator is that of an execution that waits for it. -/
structure Orderly (tr : List (SysLabel Text Event)) (w : World Text Event) (ds : Nat → Course) :
    Prop where
  used : ∀ i τ, (ds i).token = some τ → τ ∈ w.usedIds
  apart : ∀ i j τ, (ds i).token = some τ → (ds j).token = some τ → i = j
  locked : ∀ i p τ, (ds i).lock = some (p, τ) → owner w p = some τ ∧ underway τ tr = true
  threads : ∀ n th, w.threads[n]? = some th → th.pending = true →
    ∃ i, (ds i).thread = some (th.projectName, n)

section
variable {tr : List (SysLabel Text Event)} {w w' : World Text Event} {ds : Nat → Course}
  {l : SysLabel Text Event} {i : Nat}

theorem Orderly.exclusive (h : Orderly tr w ds) : Exclusive w := by
  have hpending (th : Thread Event) (hc : th.consuming = true) : th.pending = true := by
    unfold Thread.consuming at hc
    unfold Thread.pending
    cases hs : th.state with
    | queued | running => rfl
    | done _ | dropped =>
      rw [hs] at hc
      cases hc
  intro n m th th' hn hm hc hc' hp
  obtain ⟨i, hi⟩ := h.threads n th hn (hpending th hc)
  obtain ⟨j, hj⟩ := h.threads m th' hm (hpending th' hc')
  obtain ⟨τ, hiτ⟩ := Course.lock_of_thread hi
  obtain ⟨σ, hjσ⟩ := Course.lock_of_thread hj
  have hτσ : τ = σ := by
    have hown := (h.locked i _ τ hiτ).1
    rw [hp, (h.locked j _ σ hjσ).1] at hown
    exact (Option.some.inj hown).symm
  subst hτσ
  have hij := h.apart i j τ (Course.token_of_lock hiτ) (Course.token_of_lock hjσ)
  subst hij
  rw [hi] at hj
  exact (Prod.mk.inj (Option.some.inj hj)).2

/-- Nothing is under way where there is no thread. -/
theorem orderly_out (h : w.threads = []) : Orderly tr w fun _ => .out where
  used _ _ hi := by cases hi
  apart _ _ _ hi := by cases hi
  locked _ _ _ hi := by cases hi
  threads n th hn := by
    rw [h] at hn
    cases hn

/-- Every thread of `w'` that may consume an iterator is one of `w`. -/
def NoNewThread (w w' : World Text Event) : Prop :=
  ∀ (n : Nat) (th' : Thread Event), w'.threads[n]? = some th' → th'.pending = true →
    ∃ th : Thread Event, w.threads[n]? = some th ∧ th.pending = true ∧
      th.projectName = th'.projectName

theorem noNewThread_of_eq (h : w'.threads = w.threads) : NoNewThread w w' := by
  intro n th hn hp
  rw [h] at hn
  exact ⟨th, hn, hp, rfl⟩

theorem noNewThread_set {n : Nat} {th th' : Thread Event} (hn : w.threads[n]? = some th)
    (hp : th'.pending = true → th.pending = true) (he : th'.projectName = th.projectName) :
    NoNewThread w (w.setThread n th') := by
  intro m thm hm hpm
  simp only [World.setThread, List.getElem?_set] at hm
  split at hm
  · rename_i hnm
    subst hnm
    split at hm
    · cases hm
      exact ⟨th, hn, hp hpm, he.symm⟩
    · cases hm
  · exact ⟨thm, hm, hpm, rfl⟩

/-- A step that concerns no execution. -/
theorem Orderly.pass (h : Orderly tr w ds) (hl : ∀ τ, underway τ (l :: tr) = underway τ tr)
    (ho : owner w' = owner w) (hu : w.usedIds ⊆ w'.usedIds) (ht : NoNewThread w w') :
    Orderly (l :: tr) w' ds where
  used i τ hi := hu (h.used i τ hi)
  apart := h.apart
  locked i p τ hi := by
    rw [ho, hl]
    exact h.locked i p τ hi
  threads n th hn hp := by
    obtain ⟨th', hn', hp', he⟩ := ht n th hn hp
    rw [← he]
    exact h.threads n th' hn' hp'

/-- A step of the execution in process `i`. -/
theorem Orderly.step (h : Orderly tr w ds) {d : Course} (hu : w.usedIds ⊆ w'.usedIds)
    (hd : ∀ τ, d.token = some τ → τ ∈ w'.usedIds)
    (ha : ∀ j τ, j ≠ i → d.token = some τ → (ds j).token ≠ some τ)
    (hk : ∀ j p τ, j ≠ i → (ds j).lock = some (p, τ) →
      owner w' p = some τ ∧ underway τ (l :: tr) = true)
    (hl : ∀ p τ, d.lock = some (p, τ) → owner w' p = some τ ∧ underway τ (l :: tr) = true)
    (ht : ∀ n (th : Thread Event), w'.threads[n]? = some th → th.pending = true →
      d.thread = some (th.projectName, n) ∨
        ∃ j, j ≠ i ∧ (ds j).thread = some (th.projectName, n)) :
    Orderly (l :: tr) w' (Function.update ds i d) where
  used j τ hj := by
    by_cases hji : j = i
    · rw [hji, Function.update_self] at hj
      exact hd τ hj
    · rw [Function.update_of_ne hji] at hj
      exact hu (h.used j τ hj)
  apart j k τ hj hk := by
    by_cases hji : j = i <;> by_cases hki : k = i
    · exact hji.trans hki.symm
    · rw [hji, Function.update_self] at hj
      rw [Function.update_of_ne hki] at hk
      exact absurd hk (ha k τ hki hj)
    · rw [hki, Function.update_self] at hk
      rw [Function.update_of_ne hji] at hj
      exact absurd hj (ha j τ hji hk)
    · rw [Function.update_of_ne hji] at hj
      rw [Function.update_of_ne hki] at hk
      exact h.apart j k τ hj hk
  locked j p τ hj := by
    by_cases hji : j = i
    · rw [hji, Function.update_self] at hj
      exact hl p τ hj
    · rw [Function.update_of_ne hji] at hj
      exact hk j p τ hji hj
  threads n th hn hp := by
    rcases ht n th hn hp with hd | ⟨j, hji, hj⟩
    · exact ⟨i, by rw [Function.update_self, hd]⟩
    · exact ⟨j, by rw [Function.update_of_ne hji, hj]⟩

/-- The other threads belong to other executions. -/
theorem Orderly.other (h : Orderly tr w ds) {n : Nat} {th : Thread Event}
    (hn : w.threads[n]? = some th) (hp : th.pending = true)
    (hi : (ds i).thread ≠ some (th.projectName, n)) :
    ∃ j, j ≠ i ∧ (ds j).thread = some (th.projectName, n) := by
  obtain ⟨j, hj⟩ := h.threads n th hn hp
  refine ⟨j, fun hji => ?_, hj⟩
  subst hji
  exact hi hj

theorem Orderly.draw (h : Orderly tr w ds) (hd : ds i = .out) {τ : String}
    (hτ : τ ∉ w.usedIds) :
    Orderly (.cmd i .uuid4 (.ok τ) :: tr) { w with usedIds := τ :: w.usedIds }
      (Function.update ds i (.drawn τ)) := by
  apply h.step (List.subset_cons_self τ _)
  · rintro σ hσ
    cases hσ
    exact List.mem_cons_self
  · rintro j σ _ hσ hj
    cases hσ
    exact hτ (h.used j τ hj)
  · exact fun j p σ _ hj => h.locked j p σ hj
  · exact fun p σ hσ => by cases hσ
  · exact fun n th hn hp => .inr (h.other hn hp (by rw [hd]; exact fun he => by cases he))

theorem Orderly.acquire (h : Orderly tr w ds) {p τ : String} {ttl : Nat} (hd : ds i = .drawn τ)
    (hw : w.redis.locks p = none) : Orderly (.cmd i (.acquireLock p τ ttl) (.ok true) :: tr)
      (w.onRedis (·.setLock p (some ⟨τ, ttl⟩))) (Function.update ds i (.inside p τ)) := by
  have htok : (ds i).token = some τ := by rw [hd]; rfl
  have hown (q : String) : owner (w.onRedis (·.setLock p (some ⟨τ, ttl⟩))) q =
      if q = p then some τ else owner w q := by
    simp only [owner, World.onRedis, Redis.setLock, Function.update_apply]
    split <;> rfl
  apply h.step
  · exact List.Subset.refl _
  · rintro σ hσ
    cases hσ
    exact h.used i τ htok
  · rintro j σ hji hσ hj
    cases hσ
    exact hji (h.apart j i τ hj htok)
  · intro j q σ _ hj
    obtain ⟨ho, hun⟩ := h.locked j q σ hj
    have hne : q ≠ p := by
      rintro rfl
      rw [owner, hw] at ho
      cases ho
    refine ⟨by rw [hown, if_neg hne, ho], ?_⟩
    simp only [underway, hun, Bool.or_true]
  · rintro q σ hσ
    cases hσ
    exact ⟨by rw [hown, if_pos rfl], by simp only [underway, decide_true, Bool.true_or]⟩
  · exact fun n th hn hp => .inr (h.other hn hp (by rw [hd]; exact fun he => by cases he))

/-- A lock that is set for nobody is no one else's either. -/
theorem Orderly.strand (h : Orderly tr w ds) {p : String} {lk : Lock}
    (hw : w.redis.locks p = none) (hl : ∀ σ, underway σ (l :: tr) = underway σ tr) :
    Orderly (l :: tr) (w.onRedis (·.setLock p (some lk))) ds where
  used := h.used
  apart := h.apart
  locked j q σ hj := by
    obtain ⟨ho, hun⟩ := h.locked j q σ hj
    have hne : q ≠ p := by
      rintro rfl
      rw [owner, hw] at ho
      cases ho
    refine ⟨?_, by rw [hl, hun]⟩
    simpa only [owner, World.onRedis, Redis.setLock, Function.update_of_ne hne] using ho
  threads := h.threads

theorem Orderly.cleanUp (h : Orderly tr w ds) {p τ : String} {r : Except Exc Unit}
    (hd : ds i = .inside p τ) :
    Orderly (.cmd i (.cancelHeartbeat τ) r :: tr) (w.cancelHeartbeat τ)
      (Function.update ds i (.drawn τ)) := by
  have htok : (ds i).token = some τ := by rw [hd]; rfl
  obtain ⟨hown, hused⟩ := owner_cancelHeartbeat w τ
  have hthreads : (w.cancelHeartbeat τ).threads = w.threads := by
    unfold World.cancelHeartbeat
    split
    · split <;> rfl
    · rfl
  apply h.step (hused ▸ List.Subset.refl _)
  · rintro σ hσ
    cases hσ
    rw [hused]
    exact h.used i τ htok
  · rintro j σ hji hσ hj
    cases hσ
    exact hji (h.apart j i τ hj htok)
  · intro j q σ hji hj
    obtain ⟨ho, hun⟩ := h.locked j q σ hj
    have hne : τ ≠ σ := by
      rintro rfl
      exact hji (h.apart j i τ (Course.token_of_lock hj) htok)
    refine ⟨by rw [hown, ho], ?_⟩
    simp only [underway, ne_eq, hne, not_false_eq_true, decide_true, hun, Bool.and_self]
  · exact fun q σ hσ => by cases hσ
  · intro n th hn hp
    rw [hthreads] at hn
    exact .inr (h.other hn hp (by rw [hd]; exact fun he => by cases he))

theorem Orderly.release (h : Orderly tr w ds) {p τ : String} (hd : ds i = .drawn τ)
    (hl : ∀ σ, underway σ (l :: tr) = underway σ tr) :
    Orderly (l :: tr) (w.onRedis (·.evalRelease p τ)) ds where
  used := h.used
  apart := h.apart
  locked j q σ hj := by
    obtain ⟨ho, hun⟩ := h.locked j q σ hj
    refine ⟨?_, by rw [hl, hun]⟩
    rw [Gripped.owner_evalRelease]
    split
    · rename_i hp
      have hne : q ≠ p := by
        rintro rfl
        rw [ho] at hp
        cases hp
        have hji := h.apart j i τ (Course.token_of_lock hj) (by rw [hd]; rfl)
        subst hji
        rw [hd] at hj
        cases hj
      rw [Function.update_of_ne hne, ho]
    · exact ho
  threads := h.threads

theorem Orderly.launch (h : Orderly tr w ds) {id p τ : String} {it : Iter Event}
    (hd : ds i = .inside p τ) :
    Orderly (.cmd i (.runInExecutor id p it) (.ok w.threads.length) :: tr)
      { w with threads := w.threads ++ [⟨id, p, it.events, it.ending, .queued⟩] }
      (Function.update ds i (.streaming p τ w.threads.length)) := by
  have htok : (ds i).token = some τ := by rw [hd]; rfl
  apply h.step
  · exact List.Subset.refl _
  · rintro σ hσ
    cases hσ
    exact h.used i τ htok
  · rintro j σ hji hσ hj
    cases hσ
    exact hji (h.apart j i τ hj htok)
  · exact fun j q σ _ hj => h.locked j q σ hj
  · rintro q σ hσ
    cases hσ
    exact h.locked i p τ (by rw [hd]; rfl)
  · intro n th hn hp
    rcases lt_trichotomy n w.threads.length with hlt | rfl | hgt
    · rw [List.getElem?_append_left hlt] at hn
      exact .inr (h.other hn hp (by rw [hd]; exact fun he => by cases he))
    · rw [List.getElem?_concat_length] at hn
      cases hn
      exact .inl rfl
    · rw [List.getElem?_eq_none (by rw [List.length_append]; exact hgt)] at hn
      cases hn

/-- The wait for the stream is over, and its thread consumes nothing any more. -/
theorem Orderly.finish (h : Orderly tr w ds) {p τ : String} {n : Nat}
    (hd : ds i = .streaming p τ n) (hl : ∀ σ, underway σ (l :: tr) = underway σ tr)
    (ho : owner w' = owner w) (hu : w'.usedIds = w.usedIds) (ht : NoNewThread w w')
    (hn : ∀ th : Thread Event, w'.threads[n]? = some th → th.pending = false) :
    Orderly (l :: tr) w' (Function.update ds i (.inside p τ)) := by
  have htok : (ds i).token = some τ := by rw [hd]; rfl
  have h' := h.pass hl ho (hu ▸ List.Subset.refl _) ht
  apply h.step (hu ▸ List.Subset.refl _)
  · rintro σ hσ
    cases hσ
    exact h'.used i τ htok
  · rintro j σ hji hσ hj
    cases hσ
    exact hji (h.apart j i τ hj htok)
  · exact fun j q σ _ hj => h'.locked j q σ hj
  · rintro q σ hσ
    cases hσ
    exact h'.locked i p τ (by rw [hd]; rfl)
  · intro m th hm hp
    refine .inr (h'.other hm hp fun he => ?_)
    rw [hd] at he
    cases he
    rw [hn th hm] at hp
    cases hp

/-- The process streams nothing. -/
def Course.Still (d : Course) : Prop := d.thread = none

theorem Orderly.leave {q : Kind} {b : Except Exc Returned} (h : Orderly tr w ds) (hd : (ds i).Still)
    (ho : owner w' = owner w) (hu : w'.usedIds = w.usedIds) (ht : w'.threads = w.threads) :
    Orderly (.exit i q b :: tr) w' (Function.update ds i .out) := by
  apply h.step (hu ▸ List.Subset.refl _)
  · exact fun σ hσ => by cases hσ
  · exact fun j σ _ hσ => by cases hσ
  · intro j p σ _ hj
    rw [ho]
    exact h.locked j p σ hj
  · exact fun p σ hσ => by cases hσ
  · intro n th hn hp
    rw [ht] at hn
    refine .inr (h.other hn hp ?_)
    rw [hd]
    exact fun he => by cases he

theorem noNewThread_tick {S : Setup Event} {e : Tick} (ht : tick S e w w') :
    NoNewThread w w' := by
  cases e with
  | expire p =>
    obtain ⟨_, rfl⟩ := ht
    exact noNewThread_of_eq rfl
  | elapse p | beat τ =>
    obtain ⟨_, _, _, rfl⟩ := ht
    exact noNewThread_of_eq rfl
  | refresh τ held | beatFails τ e =>
    obtain ⟨_, _, _, _, rfl⟩ := ht
    exact noNewThread_of_eq rfl
  | threadStart n =>
    obtain ⟨th, hn, hs, rfl⟩ := ht
    exact noNewThread_set hn (fun _ => by simp only [Thread.pending, hs]) rfl
  | threadPublish n =>
    obtain ⟨th, _, _, _, hn, hs, _, _, rfl⟩ := ht
    exact noNewThread_set hn (fun _ => by simp only [Thread.pending, hs]) rfl
  | threadFails n e =>
    obtain ⟨th, _, _, hn, hs, _, rfl⟩ := ht
    exact noNewThread_set hn (fun _ => by simp only [Thread.pending, hs]) rfl
  | threadEnd n =>
    obtain ⟨th, hn, hs, _, rfl⟩ := ht
    exact noNewThread_set hn (fun _ => by simp only [Thread.pending, hs]) rfl
  | stop =>
    cases ht
    exact noNewThread_of_eq rfl

theorem Orderly.tick {S : Setup Event} {e : Tick} (h : Orderly tr w ds) (ht : tick S e w w')
    (hok : attended tr w (.env e) w') : Orderly (.env e :: tr) w' ds := by
  have hu : w.usedIds ⊆ w'.usedIds := tick_usedIds ht ▸ List.Subset.refl _
  have hn := noNewThread_tick ht
  cases e with
  | expire p =>
    obtain ⟨_, rfl⟩ := ht
    refine ⟨h.used, h.apart, fun j q τ hj => ?_, h.threads⟩
    obtain ⟨ho, hun⟩ := h.locked j q τ hj
    have hne : q ≠ p := by
      rintro rfl
      obtain ⟨lk, hlk, rfl⟩ := Option.map_eq_some_iff.1 ho
      rw [hok.1 q rfl lk hlk] at hun
      cases hun
    refine ⟨?_, hun⟩
    simpa only [owner, World.onRedis, Redis.setLock, Function.update_of_ne hne] using ho
  | _ =>
    have ho : owner w' = owner w := owner_tick (fun p he => by cases he) ht
    exact h.pass (fun _ => rfl) ho hu hn

theorem noNewThread_cancelFuture (n : Nat) : NoNewThread w (w.cancelFuture n) := by
  unfold World.cancelFuture
  split
  · rename_i th hn
    split
    · exact noNewThread_set hn (fun h => by cases h) rfl
    · exact noNewThread_of_eq rfl
  · exact noNewThread_of_eq rfl

/-- A thread that was not running is not pending once its future is cancelled. -/
theorem pending_cancelFuture {n : Nat} (hc : ∀ th ∈ w.threads[n]?, th.consuming = false)
    {th : Thread Event} (hn : (w.cancelFuture n).threads[n]? = some th) : th.pending = false := by
  unfold World.cancelFuture at hn
  split at hn
  · rename_i th₀ hn₀
    have hlt : n < w.threads.length := (List.getElem?_eq_some_iff.1 hn₀).1
    split at hn
    · simp only [World.setThread, List.getElem?_set_self hlt] at hn
      cases hn
      rfl
    · rename_i hq
      rw [hn₀] at hn
      cases hn
      have := hc th hn₀
      unfold Thread.consuming at this
      unfold Thread.pending
      cases hs : th.state with
      | queued => exact absurd hs hq
      | running =>
        rw [hs] at this
        cases this
      | done _ | dropped => rfl
  · rename_i hnone
    rw [hnone] at hn
    cases hn

/-- Commands that are not steps of an execution through its lock. -/
def Cmd.passing : Cmd Text Event → Bool
  | .acquireLock .. | .evalRelease .. | .cancelHeartbeat _ | .runInExecutor .. | .awaitFuture .. =>
    false
  | _ => true

theorem exec_passing {c : Cmd Text Event} {r : c.Answer} (hc : c.passing = true)
    (h : exec c r w w') : w'.threads = w.threads := by
  cases c with
  | acquireLock _ _ _ | evalRelease _ _ | cancelHeartbeat _ | runInExecutor _ _ _
  | awaitFuture _ _ => cases hc
  | setNx _ _ | brpop =>
    simp only [exec] at h
    split at h <;> obtain ⟨_, rfl⟩ := h <;> rfl
  | uuid4 =>
    obtain ⟨_, _, _, rfl⟩ := h
    rfl
  | _ =>
    obtain ⟨_, rfl⟩ := h
    rfl

theorem lockFree_of_passing {c : Cmd Text Event} (hc : c.passing = true) : c.lockFree = true := by
  cases c with
  | acquireLock _ _ _ | evalRelease _ _ => cases hc
  | _ => rfl

theorem giveUp_passing {c : Cmd Text Event} (hc : c.passing = true) (w : World Text Event) :
    c.giveUp w = w := by
  cases c with
  | awaitFuture _ _ => cases hc
  | _ => rfl

theorem underway_passing {c : Cmd Text Event} (hc : c.passing = true) (r : c.Answer)
    (τ : String) : underway τ (.cmd i c r :: tr) = underway τ tr := by
  cases c with
  | acquireLock _ _ _ | cancelHeartbeat _ => cases hc
  | _ => rfl

end

variable [TaskJson Text]

def order (Text : Type) [TaskJson Text] (S : Setup Event) : Assertion (system Text S) Course where
  ok := attended
  inv := Orderly
  guar _ _ _ := True

section
variable {S : Setup Event} {i : Nat}

theorem frames_passing (d : Course) :
    (order Text S).Frames i (fun c : Cmd Text Event => c.passing = true) d := by
  rintro c hc tr w ds l r w' hi - ha -
  refine ⟨trivial, ?_⟩
  have hexec (r : c.Answer) (w' : World Text Event) (h : exec c r w w') :
      owner w' = owner w ∧ w.usedIds ⊆ w'.usedIds ∧ NoNewThread w w' := by
    obtain ⟨ho, hu⟩ := exec_lockFree (lockFree_of_passing hc) h
    exact ⟨ho, hu, noNewThread_of_eq (exec_passing hc h)⟩
  cases ha with
  | cmd h =>
    obtain ⟨ho, hu, hn⟩ := hexec r w' h
    exact hi.pass (underway_passing hc r) ho hu hn
  | abort h =>
    obtain ⟨_, _, _, rfl | ⟨a, h⟩⟩ := h
    · rw [giveUp_passing hc]
      exact hi.pass (fun _ => rfl) rfl (List.Subset.refl _) (noNewThread_of_eq rfl)
    · obtain ⟨ho, hu, hn⟩ := hexec _ w' h
      exact hi.pass (fun _ => rfl) ho hu hn

theorem wp_keeps {p : Py Text Event σ α} {I : σ → Prop} {Q : α → σ → Course → Prop}
    {X : Exc → σ → Course → Prop} (hp : Keeps (fun c => c.passing = true) I p) (hI : I s)
    (hQ : ∀ a s, I s → Q a s d) (hX : ∀ e s, I s → X e s d) :
    Wp (order Text S) i p Q X s d := by
  apply Wp.mono (Wp.of_keeps hp hI (frames_passing d))
  · rintro a s' _ ⟨hs, rfl⟩
    exact hQ a s' hs
  · rintro e s' _ ⟨hs, rfl⟩
    exact hX e s' hs

theorem wp_passing {p : Py Text Event σ α} {Q : α → σ → Course → Prop}
    {X : Exc → σ → Course → Prop} (hp : Asks (fun c => c.passing = true) p)
    (hQ : ∀ a s, Q a s d) (hX : ∀ e s, X e s d) : Wp (order Text S) i p Q X s d := by
  apply Wp.mono (Wp.of_within hp (frames_passing d))
  · rintro a s' _ rfl
    exact hQ a s'
  · rintro e s' _ rfl
    exact hX e s'

theorem wp_draw {Q : String → σ → Course → Prop} {X : Exc → σ → Course → Prop}
    (hQ : ∀ τ, Q τ s (.drawn τ)) : Wp (order Text S) i (ask .uuid4) Q X s .out := by
  apply Wp.call
  rintro tr w ds l r w' hi hd ha -
  cases ha with
  | cmd h =>
    obtain ⟨τ, hτ, rfl, rfl⟩ := h
    exact ⟨trivial, .drawn τ, hi.draw hd hτ, hQ τ⟩
  | abort h =>
    obtain ⟨_, _, ⟨hc, _⟩ | ⟨hc, _⟩, _⟩ := h <;> cases hc

theorem wp_acquire {Q : Bool → σ → Course → Prop} {X : Exc → σ → Course → Prop}
    (hQ : Q true s (.inside p τ)) (hn : Q false s (.drawn τ)) (hX : ∀ e, X e s (.drawn τ)) :
    Wp (order Text S) i (acquireLock p τ ttl) Q X s (.drawn τ) := by
  apply Wp.call
  rintro tr w ds l r w' hi hd ha -
  have hstay (l : SysLabel Text Event) (hl : ∀ σ, underway σ (l :: tr) = underway σ tr) :
      Orderly (l :: tr) w (Function.update ds i (.drawn τ)) := by
    rw [← hd, Function.update_eq_self]
    exact hi.pass hl rfl (List.Subset.refl _) (noNewThread_of_eq rfl)
  have hcase {r : Except Exc Bool} {w' : World Text Event}
      (h : exec (.acquireLock p τ ttl) r w w') : r = .ok false ∧ w' = w ∨
        r = .ok true ∧ w.redis.locks p = none ∧
          w' = w.onRedis (·.setLock p (some ⟨τ, ttl⟩)) := by
    simp only [exec] at h
    split at h
    · exact .inl ⟨h.1.1, h.2⟩
    · rename_i hl
      exact .inr ⟨h.1.1, hl, h.2⟩
  cases ha with
  | cmd h =>
    rcases hcase h with ⟨rfl, rfl⟩ | ⟨rfl, hl, rfl⟩
    · exact ⟨trivial, .drawn τ, hstay _ fun _ => rfl, hn⟩
    · exact ⟨trivial, .inside p τ, hi.acquire hd hl, hQ⟩
  | abort h =>
    obtain ⟨e, rfl, _, rfl | ⟨a, h⟩⟩ := h
    · exact ⟨trivial, .drawn τ, hstay _ fun _ => rfl, hX e⟩
    · refine ⟨trivial, .drawn τ, ?_, hX e⟩
      rcases hcase h with ⟨_, rfl⟩ | ⟨_, hl, rfl⟩
      · exact hstay _ fun _ => rfl
      · rw [← hd, Function.update_eq_self]
        exact hi.strand hl fun _ => rfl

theorem wp_cancelHeartbeat {Q : Unit → σ → Course → Prop} {X : Exc → σ → Course → Prop}
    (hQ : Q () s (.drawn τ)) :
    Wp (order Text S) i (ask (.cancelHeartbeat τ)) Q X s (.inside p τ) := by
  apply Wp.call
  rintro tr w ds l r w' hi hd ha -
  cases ha with
  | cmd h =>
    obtain ⟨rfl, rfl⟩ := h
    exact ⟨trivial, .drawn τ, hi.cleanUp hd, hQ⟩
  | abort h =>
    obtain ⟨_, _, ⟨hc, _⟩ | ⟨hc, _⟩, _⟩ := h <;> cases hc

theorem wp_release {Q : Unit → σ → Course → Prop} {X : Exc → σ → Course → Prop}
    (hQ : Q () s (.drawn τ)) (hX : ∀ e, X e s (.drawn τ)) :
    Wp (order Text S) i (releaseLock p τ) Q X s (.drawn τ) := by
  apply Wp.call
  rintro tr w ds l r w' hi hd ha -
  have hupdate : Function.update ds i (.drawn τ) = ds := by rw [← hd, Function.update_eq_self]
  cases ha with
  | cmd h =>
    obtain ⟨rfl, rfl⟩ := h
    refine ⟨trivial, .drawn τ, ?_, hQ⟩
    rw [hupdate]
    exact hi.release hd fun _ => rfl
  | abort h =>
    obtain ⟨e, rfl, _, rfl | ⟨a, _, rfl⟩⟩ := h
    · refine ⟨trivial, .drawn τ, ?_, hX e⟩
      rw [hupdate]
      exact hi.pass (fun _ => rfl) rfl (List.Subset.refl _) (noNewThread_of_eq rfl)
    · refine ⟨trivial, .drawn τ, ?_, hX e⟩
      rw [hupdate]
      exact hi.release hd fun _ => rfl

theorem wp_runInExecutor {id : String} {Q : Nat → σ → Course → Prop} {X : Exc → σ → Course → Prop}
    (hQ : ∀ n, Q n s (.streaming p τ n)) :
    Wp (order Text S) i (ask (.runInExecutor id p it)) Q X s (.inside p τ) := by
  apply Wp.call
  rintro tr w ds l r w' hi hd ha -
  cases ha with
  | cmd h =>
    obtain ⟨rfl, rfl⟩ := h
    exact ⟨trivial, _, hi.launch hd, hQ _⟩
  | abort h =>
    obtain ⟨_, _, ⟨hc, _⟩ | ⟨hc, _⟩, _⟩ := h <;> cases hc

/-- The end of a wait that was not cut off from a running thread. -/
theorem wp_awaitFuture {Q : Unit → σ → Course → Prop} {X : Exc → σ → Course → Prop}
    (hQ : Q () s (.inside p τ)) (hX : ∀ e, X e s (.inside p τ)) :
    Wp (order Text S) i (ask (.awaitFuture n timeout)) Q X s (.streaming p τ n) := by
  apply Wp.call
  intro tr w ds l r w' hi hd ha hok
  have hdone {r : Except Exc Unit} {w' : World Text Event} (l : SysLabel Text Event)
      (hl : ∀ σ, underway σ (l :: tr) = underway σ tr)
      (h : exec (.awaitFuture n timeout) r w w')
      (hc : ∀ e, r = .error e → ∀ th ∈ w.threads[n]?, th.consuming = false) :
      Orderly (l :: tr) w' (Function.update ds i (.inside p τ)) := by
    rcases h with ⟨th, o, hn, hs, rfl, rfl⟩ | ⟨_, ⟨m, rfl⟩, rfl⟩
    · apply hi.finish hd hl rfl rfl (noNewThread_of_eq rfl)
      intro th' hn'
      rw [hn] at hn'
      cases hn'
      simp only [Thread.pending, hs]
    · obtain ⟨ho, hu⟩ := owner_cancelFuture w n
      exact hi.finish hd hl ho hu (noNewThread_cancelFuture n) fun th hn =>
        pending_cancelFuture (hc _ rfl) hn
  cases ha with
  | cmd h =>
    refine ⟨trivial, .inside p τ, hdone _ (fun _ => rfl) h fun e he => ?_, ?_⟩
    · subst he
      exact hok.2 n rfl
    · cases r with
      | ok a => exact hQ
      | error e => exact hX e
  | abort h =>
    obtain ⟨e, rfl, _, rfl | ⟨a, h⟩⟩ := h
    · obtain ⟨ho, hu⟩ := owner_cancelFuture w n
      exact ⟨trivial, .inside p τ, hi.finish hd (fun _ => rfl) ho hu (noNewThread_cancelFuture n)
        fun th hn => pending_cancelFuture (hok.2 n rfl) hn, hX e⟩
    · have hi' := hdone (.abort i (.awaitFuture n timeout) (.error e)) (fun _ => rfl) h
        fun _ he => by cases he
      exact ⟨trivial, .inside p τ, hi', hX e⟩

theorem passing_of_aside {c : Cmd Text Event} (h : c.aside) : c.passing = true := by
  cases c with
  | acquireLock _ _ _ | evalRelease _ _ | cancelHeartbeat _ | runInExecutor _ _ _
  | awaitFuture _ _ => exact absurd h.2 not_false
  | _ => rfl

/-- The task is one of project `p`, and the execution has the lock. -/
def Inside (p τ : String) (t : Task) (d : Course) : Prop :=
  t.projectName = p ∧ d = .inside p τ

/-- The function is called with the lock, and however it ends it ends with the lock. -/
def Secured (S : Setup Event) (i : Nat) (p τ : String) (q : Py Text Event Task α) : Prop :=
  ∀ t d, Inside p τ t d →
    Wp (order Text S) i q (fun _ => Inside p τ) (fun _ => Inside p τ) t d

theorem secured_pure (a : α) : Secured S i p τ (Pure.pure a : Py Text Event Task α) :=
  fun _ _ h => Wp.pure a h

theorem secured_raise (e : Exc) : Secured S i p τ (raise e : Py Text Event Task α) :=
  fun _ _ h => Wp.raise e h

theorem secured_object : Secured S i p τ (object : Py Text Event Task Task) :=
  fun _ _ h => Wp.object h

theorem secured_bind {q : Py Text Event Task α} {f : α → Py Text Event Task β}
    (hq : Secured S i p τ q) (hf : ∀ a, Secured S i p τ (f a)) :
    Secured S i p τ (q >>= f) := by
  intro t d h
  apply Wp.bind
  apply Wp.mono (hq t d h)
  · exact fun a t d h => hf a t d h
  · exact fun _ _ _ h => h

theorem secured_attempt {q : Py Text Event Task α} (hq : Secured S i p τ q) :
    Secured S i p τ (attempt q) := by
  intro t d h
  apply Wp.attempt
  exact hq t d h

theorem secured_keeps {q : Py Text Event Task α}
    (hq : Keeps (fun c => c.passing = true) (fun t => t.projectName = p) q) :
    Secured S i p τ q := by
  rintro t _ ⟨hp, rfl⟩
  exact wp_keeps hq hp (fun _ _ hp => ⟨hp, rfl⟩) fun _ _ hp => ⟨hp, rfl⟩

theorem secured_aside {q : Py Text Event Task α}
    (hq : (∀ t u, Task.SameTask u t → t.projectName = p → u.projectName = p) →
      Keeps Cmd.aside (fun t => t.projectName = p) q) : Secured S i p τ q :=
  secured_keeps (Keeps.mono (hq fun _ _ hs ht => hs.2.1.trans ht) fun _ => passing_of_aside)

theorem secured_stream (mode : TaskMode) :
    Secured S i p τ (Worker.stream S mode : Py Text Event Task Unit) := by
  rintro t _ ⟨rfl, rfl⟩
  have hinside : Inside t.projectName τ t (.inside t.projectName τ) := ⟨rfl, rfl⟩
  unfold Worker.stream
  apply Wp.bind
  apply Wp.object
  apply Wp.bind
  apply wp_keeps (I := fun u => u = t) (keeps_call rfl) rfl
  · rintro it _ rfl
    apply Wp.bind
    apply wp_runInExecutor
    intro n
    apply Wp.bind
    apply Wp.attempt
    apply wp_awaitFuture
    · exact Wp.pure _ hinside
    · intro exc
      dsimp only
      split
      · exact Wp.raise _ hinside
      · exact Wp.raise _ hinside
  · rintro e _ rfl
    exact hinside

theorem secured_reject (detail : String) :
    Secured S i p τ (Worker.reject S detail : Py Text Event Task Unit) :=
  secured_aside fun hI => keeps_reject hI detail

theorem secured_update : Secured S i p τ (Worker.update S : Py Text Event Task Unit) :=
  secured_aside fun _ => keeps_update

theorem secured_transition (st : TaskStatus) (detail : String) :
    Secured S i p τ (Worker.transition st detail : Py Text Event Task Unit) :=
  secured_aside fun hI => keeps_transition hI st detail

theorem secured_close : Secured S i p τ (Worker.close : Py Text Event Task Unit) :=
  secured_aside fun _ => keeps_close

theorem secured_handleRetriable (exc : Exc) :
    Secured S i p τ (Worker.handleRetriable S exc : Py Text Event Task Unit) :=
  secured_aside fun hI => keeps_handleRetriable hI exc

theorem secured_attemptStream (mode : TaskMode) :
    Secured S i p τ (Worker.attemptStream S mode : Py Text Event Task Unit) := by
  have htried : Secured S i p τ (do
      Worker.stream S mode
      Worker.transition .success ""
      Worker.update S : Py Text Event Task Unit) := by
    apply secured_bind (secured_stream mode)
    exact fun _ => secured_bind (secured_transition _ _) fun _ => secured_update
  apply secured_bind (secured_attempt htried)
  intro outcome
  cases outcome with
  | ok _ => exact secured_close
  | error exc =>
    dsimp only
    split
    · exact secured_reject _
    · exact secured_bind secured_close fun _ => secured_handleRetriable exc
    · exact secured_raise exc
    · exact secured_raise exc
    · apply secured_bind (secured_transition _ _)
      intro _
      apply secured_bind secured_update
      exact fun _ => secured_bind secured_close fun _ => secured_raise exc
    · exact secured_reject _

theorem secured_runLocked :
    Secured S i p τ (Worker.runLocked S : Py Text Event Task Unit) := by
  apply secured_bind secured_object
  intro task
  apply secured_bind (secured_attempt (secured_keeps (keeps_call rfl)))
  intro engine
  cases engine with
  | error exc =>
    dsimp only
    split
    · exact secured_reject _
    · exact secured_raise exc
  | ok _ =>
    apply secured_bind (secured_attempt (secured_aside fun hI => keeps_decide hI))
    intro decision
    cases decision with
    | error exc =>
      dsimp only
      split
      · exact secured_reject _
      · exact secured_raise exc
    | ok mode =>
      apply secured_bind (secured_transition _ _)
      intro _
      exact secured_bind secured_update fun _ => secured_attemptStream mode

theorem secured_guarded : Secured S i p τ (Worker.guarded S : Py Text Event Task Unit) := by
  apply secured_bind (secured_attempt secured_runLocked)
  intro o
  cases o with
  | ok _ => exact secured_pure ()
  | error exc =>
    dsimp only
    split
    · apply secured_bind secured_object
      intro task
      apply secured_bind (secured_keeps (keeps_call rfl))
      exact fun _ => secured_handleRetriable _
    · exact secured_raise exc

/-- However the guarded part ends, the clean-up comes before the release. -/
theorem wp_cleanUp_order {t : Task} {Q : Unit → Task → Course → Prop}
    {X : Exc → Task → Course → Prop} (hQ : ∀ t, Q () t (.drawn τ)) (hX : ∀ e t, X e t (.drawn τ)) :
    Wp (order Text S) i (Worker.cleanUp p τ) Q X t (.inside p τ) := by
  unfold Worker.cleanUp
  apply Wp.bind
  apply wp_cancelHeartbeat
  apply Wp.bind
  apply Wp.attempt
  apply wp_passing (asks rfl)
  · exact fun _ t => wp_release (hQ t) fun e => hX e t
  · exact fun _ t => wp_release (hQ t) fun e => hX e t

theorem wp_execute_order {t : Task} :
    Wp (order Text S) i (Worker.execute S) (fun _ _ => Course.Still) (fun _ _ => Course.Still) t
      .out := by
  unfold Worker.execute
  apply Wp.bind
  apply Wp.object
  apply Wp.bind
  apply wp_draw
  intro τ
  apply Wp.bind
  apply wp_acquire
  · simp only [↓reduceIte]
    apply Wp.bind
    apply wp_keeps (I := fun u => u = t) (keeps_call rfl) rfl
    · rintro _ _ rfl
      apply Wp.ensure
      apply Wp.mono (secured_guarded _ _ ⟨rfl, rfl⟩)
      · rintro _ u _ ⟨-, rfl⟩
        exact wp_cleanUp_order (fun _ => rfl) fun _ _ => rfl
      · rintro _ u _ ⟨-, rfl⟩
        exact wp_cleanUp_order (fun _ => rfl) fun _ _ => rfl
    · exact fun _ _ _ => rfl
  · simp only [Bool.false_eq_true, ↓reduceIte]
    have hrest : Asks (fun c : Cmd Text Event => c.passing = true) (do
        ask (.log (.lockBusy t.projectName t.taskId))
        TaskQueue.enqueue t
        ask .sleep : Py Text Event Task Unit) :=
      within_bind (asks rfl) fun _ => within_bind (asks rfl) fun _ => asks rfl
    exact wp_passing hrest (fun _ _ => rfl) fun _ _ => rfl
  · exact fun _ => rfl

theorem wp_turn_order {s : Unit} :
    Wp (order Text S) i (Worker.turn S) (fun _ _ => Course.Still) (fun _ _ => Course.Still) s
      .out := by
  have hdequeue : Asks (fun c : Cmd Text Event => c.passing = true)
      (TaskQueue.dequeue : Py Text Event Unit _) := by
    apply within_bind (asks (p := fun c : Cmd Text Event => c.passing = true) rfl)
    intro o
    cases o <;> exact within_pure _
  unfold Worker.turn
  apply Wp.bind
  apply wp_passing hdequeue
  · intro o s
    cases o with
    | none => exact Wp.pure _ rfl
    | some t => exact Wp.on t wp_execute_order
  · exact fun _ _ => rfl

theorem passing_of_request {c : Cmd Text Event} (h : c.request) : c.passing = true := by
  cases c with
  | acquireLock _ _ _ | evalRelease _ _ | cancelHeartbeat _ | runInExecutor _ _ _
  | awaitFuture _ _ => exact absurd h.2 not_false
  | _ => rfl

theorem passing_of_recovery {c : Cmd Text Event} (h : c.recovery) : c.passing = true := by
  cases c with
  | acquireLock _ _ _ | evalRelease _ _ | cancelHeartbeat _ | runInExecutor _ _ _
  | awaitFuture _ _ => exact absurd h.2 not_false
  | _ => rfl

theorem order_body (q : Kind) :
    Safe (order Text S) i (fun _ => Course.Still) ((system Text S).body q) .out := by
  apply Wp.start
  cases q with
  | recover =>
    apply Wp.bind
    apply wp_passing (asks_recoverStrandedTasks.mono fun _ => passing_of_recovery)
    · exact fun _ _ => Wp.pure _ rfl
    · exact fun _ _ => rfl
  | worker =>
    apply Wp.bind
    apply Wp.mono wp_turn_order
    · exact fun _ _ _ hd => Wp.pure _ hd
    · exact fun _ _ _ hd => hd
  | request body =>
    apply Wp.bind
    apply wp_passing ((asks_createTask body).mono fun _ => passing_of_request)
    · exact fun _ _ => Wp.pure _ rfl
    · exact fun _ _ => rfl

theorem order_sound :
    (order Text S).Sound .out (fun _ _ => Course.Still) World.init where
  start := orderly_out rfl
  spawn := by
    rintro tr w ds i q w' hi hd hs -
    refine ⟨trivial, .out, ?_, order_body q⟩
    rw [← hd, Function.update_eq_self]
    have hpass (ho : owner w' = owner w) (hu : w'.usedIds = w.usedIds)
        (ht : w'.threads = w.threads) : Orderly (.spawn i q :: tr) w' ds :=
      hi.pass (fun _ => rfl) ho (hu ▸ List.Subset.refl _) (noNewThread_of_eq ht)
    cases q <;> obtain ⟨_, rfl⟩ := hs <;> exact hpass rfl rfl rfl
  exit := by
    rintro tr w ds i q b w' o hi hd he -
    have hx : Orderly (.exit i q b :: tr) w' (Function.update ds i .out) := by
      cases q <;> cases b <;> obtain ⟨_, rfl⟩ := he <;> exact hi.leave hd rfl rfl rfl
    refine ⟨trivial, ?_⟩
    cases o with
    | none => exact hx
    | some q' => exact ⟨.out, hx, order_body q'⟩
  env := by
    rintro tr w ds e w' hi he hok
    exact ⟨trivial, hi.tick he hok⟩
  halt := by
    rintro tr w ds w' - hh -
    cases hh
    exact ⟨trivial, orderly_out rfl⟩

/-- Where no wait for a stream is cut off from its thread, and no lock expires under the
execution that holds it, the iterators of one project are consumed one after the other. -/
theorem exclusive_of_run {tr : List (SysLabel Text Event)} {s : SysConfig Text Event}
    (hr : Run (system Text S) attended (.idle .init) tr s) : Exclusive s.world := by
  have hr' : Run (system Text S) (order Text S).ok (.idle .init) tr s := hr
  obtain ⟨ds, hi⟩ := order_sound.inv hr'
  exact hi.exclusive

end

/-- Two tasks of one project wait, and two workers are there to take them. -/
def twoWorkers : Schedule := twoTasks ++ [.spawn 3 .worker, .spawn 4 .worker]

/-- The second worker streams its task after the first one is done. -/
def oneByOne : Schedule :=
  twoWorkers ++ turnToStream 3 0 ++ turnFromStream 3 ++ go 4 11 ++ [.env (.threadStart 1)]

/-- The second worker gets its task while the thread of the first one, whose wait has run into
its limit, still consumes the iterator. -/
def bothStream : Schedule :=
  twoWorkers ++ go 3 11 ++ [.env (.threadStart 0), .cmd 3 .expires] ++ go 3 6 ++ go 4 11 ++
    [.env (.threadStart 1)]

instance (tr : List (SysLabel Text Event)) (w : World Text Event) (l : SysLabel Text Event)
    (w' : World Text Event) : Decidable (attended tr w l w') :=
  inferInstanceAs (Decidable ((∀ p ∈ expiry l, ∀ lk ∈ w.redis.locks p,
    underway lk.token tr = false) ∧ ∀ n ∈ cutOff l, ∀ th ∈ w.threads[n]?, th.consuming = false))

instance (tr : List (SysLabel Text Event)) (w : World Text Event) (l : SysLabel Text Event)
    (w' : World Text Event) : Decidable (beating tr w l w') :=
  inferInstanceAs (Decidable (∀ p ∈ expiry l, ∀ lk ∈ w.redis.locks p,
    ∀ hb ∈ w.heartbeats lk.token, hb.alive = false))

theorem exclusive_oneByOne : ∃ tr s, DemoRun attended tr s ∧
    consumer s.world 0 = some (false, "p") ∧ consumer s.world 1 = some (true, "p") ∧
    Exclusive s.world := by
  obtain ⟨tr, s, hr, hs⟩ := demoDriver.drive_observe attended (.idle .init) oneByOne
    (fun o => some (consumer o.2.world 0, consumer o.2.world 1))
    (show _ = some (some (false, "p"), some (true, "p")) by decide)
  obtain ⟨h₀, h₁⟩ := Prod.mk.inj (Option.some.inj hs)
  exact ⟨tr, s, hr, h₀, h₁, exclusive_of_run hr⟩

theorem not_exclusive : ¬∀ tr s, DemoRun beating tr s → Exclusive s.world := by
  intro h
  obtain ⟨tr, s, hr, hs⟩ := demoDriver.drive_observe beating (.idle .init) bothStream
    (fun o => some (consumer o.2.world 0, consumer o.2.world 1))
    (show _ = some (some (true, "p"), some (true, "p")) by decide)
  obtain ⟨h₀, h₁⟩ := Prod.mk.inj (Option.some.inj hs)
  exact not_exclusive_of_consumer h₀ h₁ (h tr s hr)

end Orchestrator
