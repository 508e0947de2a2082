import Orchestrator.Concurrency.Custody
import Orchestrator.Concurrency.Lease
import Orchestrator.Footprint
import Orchestrator.Frame
import Orchestrator.Schedule

namespace Orchestrator
open Concurrency Async
set_option autoImplicit true

/-- What a step does to the lock keys. -/
def leaseEvent : SysLabel Text Event → Option (LeaseEvent String String)
  | .cmd _ (.acquireLock p τ _) (.ok true) => some (.acquire p τ)
  | .cmd _ (.evalRelease p τ) _ => some (.release p τ)
  | .env (.expire p) => some (.expire p)
  | _ => none

def leases (tr : List (SysLabel Text Event)) : List (LeaseEvent String String) :=
  tr.filterMap leaseEvent

/-- The tokens in the lock keys. -/
def owner (w : World Text Event) (p : String) : Option String := (w.redis.locks p).map Lock.token

/-- Commands other than those on a lock key. -/
def Cmd.lockFree : Cmd Text Event → Bool
  | .acquireLock .. | .evalRelease .. => false
  | _ => true

/-- One live process in which Redis carries out every `SET NX EX` and every script. -/
def lockable : Filter Text Event := fun _ _ l _ =>
  match l with
  | .halt => False
  | .abort _ c _ => c.lockFree = true
  | _ => True

/-- The token of an execution in process `i`, once it has the lock. -/
def Acquired (i : Nat) (p τ : String) (tr : List (SysLabel Text Event)) : Prop :=
  ∃ ttl, .cmd i (.acquireLock p τ ttl) (.ok true) ∈ tr

/-- An execution in process `i` has acquired the lock and come to its end. -/
def Exited (i : Nat) (p τ : String) (tr : List (SysLabel Text Event)) : Prop :=
  ∃ q b earlier, .exit i q b :: earlier <:+ tr ∧ Acquired i p τ earlier

theorem holds_iff {w : World Text Event} {p τ : String} :
    w.redis.holds p τ = true ↔ owner w p = some τ := by
  unfold Redis.holds owner
  cases w.redis.locks p <;> simp

/-- How far the execution in a process is: it may have drawn its token, or have the lock. -/
inductive Grip where
  | idle
  | drawn (τ : String)
  | locked (p τ : String)

def Grip.Free (d : Grip) : Prop := ∀ p τ, d ≠ .locked p τ

/-- Every execution that has acquired the lock of a project has it on record, or has sent the
release. -/
structure Gripped (tr : List (SysLabel Text Event)) (w : World Text Event) (ds : Nat → Grip) :
    Prop where
  leases : Leases (leases tr) (owner w)
  used : ∀ τ, Mentioned τ (Orchestrator.leases tr) → τ ∈ w.usedIds
  drawn : ∀ i τ, ds i = .drawn τ → τ ∈ w.usedIds ∧ ¬Mentioned τ (Orchestrator.leases tr)
  apart : ∀ i j τ, ds i = .drawn τ → ds j = .drawn τ → i = j
  locked : ∀ i p τ, ds i = .locked p τ → .acquire p τ ∈ Orchestrator.leases tr
  acquired : ∀ i p τ, Acquired i p τ tr →
    ds i = .locked p τ ∨ .release p τ ∈ Orchestrator.leases tr
  exited : ∀ i p τ, Exited i p τ tr → .release p τ ∈ Orchestrator.leases tr

section
variable {tr : List (SysLabel Text Event)} {w w' : World Text Event} {ds : Nat → Grip}
  {l : SysLabel Text Event} {i : Nat}

theorem leases_cons (l : SysLabel Text Event) (tr : List (SysLabel Text Event)) :
    leases (l :: tr) = (leaseEvent l).toList ++ leases tr := by
  unfold leases
  rw [List.filterMap_cons]
  cases leaseEvent l <;> rfl

theorem Acquired.of_cons {p τ : String} (h : Acquired i p τ (l :: tr)) :
    (∃ ttl, l = .cmd i (.acquireLock p τ ttl) (.ok true)) ∨ Acquired i p τ tr := by
  obtain ⟨ttl, hm⟩ := h
  rcases List.mem_cons.1 hm with he | hm
  · exact .inl ⟨ttl, he.symm⟩
  · exact .inr ⟨ttl, hm⟩

theorem Exited.of_cons {p τ : String} (h : Exited i p τ (l :: tr)) :
    (∃ q b, l = .exit i q b) ∧ Acquired i p τ tr ∨ Exited i p τ tr := by
  obtain ⟨q, b, earlier, hs, ha⟩ := h
  rcases List.suffix_cons_iff.1 hs with he | hs
  · cases he
    exact .inl ⟨⟨q, b, rfl⟩, ha⟩
  · exact .inr ⟨q, b, earlier, hs, ha⟩

namespace Gripped

theorem init : Gripped ([] : List (SysLabel Text Event)) .init fun _ => .idle where
  leases := .nil
  used _ := by
    rintro ⟨_, hm, _⟩
    cases hm
  drawn _ _ hd := by cases hd
  apart _ _ _ hd := by cases hd
  locked _ _ _ hd := by cases hd
  acquired _ _ _ := by
    rintro ⟨_, hm⟩
    cases hm
  exited _ _ _ := by
    rintro ⟨_, _, _, hs, _⟩
    cases List.suffix_nil.1 hs

/-- A step that leaves the lock keys alone. -/
theorem pass (h : Gripped tr w ds) (hl : leaseEvent l = none) (hx : ∀ i q b, l ≠ .exit i q b)
    (ho : owner w' = owner w) (hu : w.usedIds ⊆ w'.usedIds) : Gripped (l :: tr) w' ds := by
  have hes : Orchestrator.leases (l :: tr) = Orchestrator.leases tr := by
    rw [leases_cons, hl, Option.toList_none, List.nil_append]
  refine ⟨?_, ?_, ?_, h.apart, ?_, ?_, ?_⟩ <;> simp only [hes]
  · rw [ho]
    exact h.leases
  · exact fun τ hτ => hu (h.used τ hτ)
  · exact fun j τ hj => ⟨hu (h.drawn j τ hj).1, (h.drawn j τ hj).2⟩
  · exact h.locked
  · intro j p τ ha
    rcases ha.of_cons with ⟨ttl, rfl⟩ | ha
    · cases hl
    · exact h.acquired j p τ ha
  · intro j p τ he
    rcases he.of_cons with ⟨⟨q, b, rfl⟩, _⟩ | he
    · exact absurd rfl (hx j q b)
    · exact h.exited j p τ he

/-- An execution without the lock may forget its token. -/
theorem forget (h : Gripped tr w ds) (hd : (ds i).Free) :
    Gripped tr w (Function.update ds i .idle) := by
  have hsub {j : Nat} {d : Grip} (hj : Function.update ds i .idle j = d) (hne : d ≠ .idle) :
      ds j = d := by
    rcases update_eq_iff.1 hj with ⟨_, he⟩ | ⟨_, hj⟩
    · exact absurd he.symm hne
    · exact hj
  refine ⟨h.leases, h.used, fun j τ hj => ?_, fun j k τ hj hk => ?_, fun j p τ hj => ?_,
    fun j p τ ha => ?_, h.exited⟩
  · exact h.drawn j τ (hsub hj nofun)
  · exact h.apart j k τ (hsub hj nofun) (hsub hk nofun)
  · exact h.locked j p τ (hsub hj nofun)
  · rcases h.acquired j p τ ha with hj | hr
    · have hne : j ≠ i := by
        rintro rfl
        exact hd p τ hj
      exact .inl (by rw [Function.update_of_ne hne, hj])
    · exact .inr hr

theorem draw (h : Gripped tr w ds) (hd : (ds i).Free) {τ : String} (hτ : τ ∉ w.usedIds) :
    Gripped (.cmd i .uuid4 (.ok τ) :: tr) { w with usedIds := τ :: w.usedIds }
      (Function.update ds i (.drawn τ)) := by
  have hp : Gripped (.cmd i .uuid4 (.ok τ) :: tr) { w with usedIds := τ :: w.usedIds } ds :=
    h.pass rfl (fun _ _ _ he => by cases he) rfl (List.subset_cons_self τ _)
  refine ⟨hp.leases, hp.used, fun j τ' hj => ?_, fun j k τ' hj hk => ?_, fun j p τ' hj => ?_,
    fun j p τ' ha => ?_, hp.exited⟩
  · rcases update_eq_iff.1 hj with ⟨_, he⟩ | ⟨_, hj⟩
    · cases he
      exact ⟨List.mem_cons_self, fun hm => hτ (h.used τ hm)⟩
    · exact hp.drawn j τ' hj
  · rcases update_eq_iff.1 hj with ⟨hji, hj⟩ | ⟨_, hj⟩ <;>
      rcases update_eq_iff.1 hk with ⟨hki, hk⟩ | ⟨_, hk⟩
    · exact hji.trans hki.symm
    · cases hj
      exact absurd (h.drawn k τ hk).1 hτ
    · cases hk
      exact absurd (h.drawn j τ hj).1 hτ
    · exact h.apart j k τ' hj hk
  · rcases update_eq_iff.1 hj with ⟨_, he⟩ | ⟨_, hj⟩
    · cases he
    · exact hp.locked j p τ' hj
  · rcases hp.acquired j p τ' ha with hj | hr
    · have hne : j ≠ i := by
        rintro rfl
        exact hd p τ' hj
      exact .inl (by rw [Function.update_of_ne hne, hj])
    · exact .inr hr

theorem acquire (h : Gripped tr w ds) {p τ : String} {ttl : Nat} (hd : ds i = .drawn τ)
    (hw : w.redis.locks p = none) : Gripped (.cmd i (.acquireLock p τ ttl) (.ok true) :: tr)
      (w.onRedis (·.setLock p (some ⟨τ, ttl⟩))) (Function.update ds i (.locked p τ)) := by
  obtain ⟨hused, hnew⟩ := h.drawn i τ hd
  have hown : owner (w.onRedis (·.setLock p (some ⟨τ, ttl⟩))) =
      Function.update (owner w) p (some τ) := by
    funext q
    simp only [owner, World.onRedis, Redis.setLock, Function.update_apply]
    split <;> rfl
  refine ⟨?_, ?_, fun j τ' hj => ?_, fun j k τ' hj hk => ?_, fun j q τ' hj => ?_,
    fun j q τ' ha => ?_, fun j q τ' he => ?_⟩
  · rw [hown]
    exact h.leases.acquire (by rw [owner, hw, Option.map_none]) hnew
  · intro τ' hm
    rcases mentioned_cons.1 hm with he | hm
    · cases he
      exact hused
    · exact h.used τ' hm
  · rcases update_eq_iff.1 hj with ⟨_, he⟩ | ⟨hji, hj⟩
    · cases he
    · refine ⟨(h.drawn j τ' hj).1, fun hm => ?_⟩
      rcases mentioned_cons.1 hm with he | hm
      · cases he
        exact hji (h.apart j i τ hj hd)
      · exact (h.drawn j τ' hj).2 hm
  · rcases update_eq_iff.1 hj with ⟨_, he⟩ | ⟨_, hj⟩
    · cases he
    · rcases update_eq_iff.1 hk with ⟨_, he⟩ | ⟨_, hk⟩
      · cases he
      · exact h.apart j k τ' hj hk
  · rcases update_eq_iff.1 hj with ⟨_, he⟩ | ⟨_, hj⟩
    · cases he
      exact List.mem_cons_self
    · exact List.mem_cons_of_mem _ (h.locked j q τ' hj)
  · rcases ha.of_cons with ⟨ttl', he⟩ | ha
    · cases he
      exact .inl (Function.update_self ..)
    · rcases h.acquired j q τ' ha with hj | hr
      · have hne : j ≠ i := by
          rintro rfl
          rw [hd] at hj
          cases hj
        exact .inl (by rw [Function.update_of_ne hne, hj])
      · exact .inr (List.mem_cons_of_mem _ hr)
  · rcases he.of_cons with ⟨⟨_, _, he⟩, _⟩ | he
    · cases he
    · exact List.mem_cons_of_mem _ (h.exited j q τ' he)

theorem owner_evalRelease (w : World Text Event) (p τ : String) :
    owner (w.onRedis (·.evalRelease p τ)) =
      if owner w p = some τ then Function.update (owner w) p none else owner w := by
  by_cases ho : owner w p = some τ
  · rw [if_pos ho]
    funext q
    simp only [owner, World.onRedis, Redis.evalRelease, holds_iff.2 ho, ↓reduceIte, Redis.setLock,
      Function.update_apply]
    split <;> rfl
  · rw [if_neg ho]
    simp only [World.onRedis, Redis.evalRelease, if_neg (fun h => ho (holds_iff.1 h))]

theorem release (h : Gripped tr w ds) {p τ : String} {r : Except Exc Unit}
    (hd : ds i = .locked p τ) : Gripped (.cmd i (.evalRelease p τ) r :: tr)
      (w.onRedis (·.evalRelease p τ)) (Function.update ds i .idle) := by
  have hsub {j : Nat} {d : Grip} (hj : Function.update ds i .idle j = d) (hne : d ≠ .idle) :
      ds j = d := by
    rcases update_eq_iff.1 hj with ⟨_, he⟩ | ⟨_, hj⟩
    · exact absurd he.symm hne
    · exact hj
  have hmention : Mentioned τ (Orchestrator.leases tr) := ⟨_, h.locked i p τ hd, rfl⟩
  refine ⟨?_, ?_, fun j τ' hj => ?_, fun j k τ' hj hk => ?_, fun j q τ' hj => ?_,
    fun j q τ' ha => ?_, fun j q τ' he => ?_⟩
  · rw [owner_evalRelease]
    exact h.leases.release
  · intro τ' hm
    rcases mentioned_cons.1 hm with he | hm
    · cases he
      exact h.used τ hmention
    · exact h.used τ' hm
  · have hj := hsub hj nofun
    refine ⟨(h.drawn j τ' hj).1, fun hm => ?_⟩
    rcases mentioned_cons.1 hm with he | hm
    · cases he
      exact (h.drawn j τ hj).2 hmention
    · exact (h.drawn j τ' hj).2 hm
  · exact h.apart j k τ' (hsub hj nofun) (hsub hk nofun)
  · exact List.mem_cons_of_mem _ (h.locked j q τ' (hsub hj nofun))
  · rcases ha.of_cons with ⟨_, he⟩ | ha
    · cases he
    · rcases h.acquired j q τ' ha with hj | hr
      · by_cases hji : j = i
        · subst hji
          rw [hd] at hj
          cases hj
          exact .inr List.mem_cons_self
        · exact .inl (by rw [Function.update_of_ne hji, hj])
      · exact .inr (List.mem_cons_of_mem _ hr)
  · rcases he.of_cons with ⟨⟨_, _, he⟩, _⟩ | he
    · cases he
    · exact List.mem_cons_of_mem _ (h.exited j q τ' he)

theorem expire (h : Gripped tr w ds) (p : String) :
    Gripped (.env (.expire p) :: tr) (w.onRedis (·.setLock p none)) ds := by
  have hown : owner (w.onRedis (·.setLock p none)) = Function.update (owner w) p none := by
    funext q
    simp only [owner, World.onRedis, Redis.setLock, Function.update_apply]
    split <;> rfl
  have hmention (τ : String) (hm : Mentioned τ (.expire p :: Orchestrator.leases tr)) :
      Mentioned τ (Orchestrator.leases tr) :=
    (mentioned_cons.1 hm).resolve_left fun he => Option.some_ne_none τ he.symm
  refine ⟨?_, ?_, fun j τ' hj => ?_, h.apart, fun j q τ' hj => ?_, fun j q τ' ha => ?_,
    fun j q τ' he => ?_⟩
  · rw [hown]
    exact h.leases.expire
  · exact fun τ hm => h.used τ (hmention τ hm)
  · exact ⟨(h.drawn j τ' hj).1, fun hm => (h.drawn j τ' hj).2 (hmention τ' hm)⟩
  · exact List.mem_cons_of_mem _ (h.locked j q τ' hj)
  · rcases ha.of_cons with ⟨_, he⟩ | ha
    · cases he
    · exact (h.acquired j q τ' ha).imp_right (List.mem_cons_of_mem _)
  · rcases he.of_cons with ⟨⟨_, _, he⟩, _⟩ | he
    · cases he
    · exact List.mem_cons_of_mem _ (h.exited j q τ' he)

/-- At the end of a process its executions have sent their releases. -/
theorem exit (h : Gripped tr w ds) (hd : (ds i).Free) {q : Kind} {b : Except Exc Returned}
    (ho : owner w' = owner w) (hu : w'.usedIds = w.usedIds) :
    Gripped (.exit i q b :: tr) w' (Function.update ds i .idle) := by
  have h := h.forget hd
  refine ⟨ho ▸ h.leases, hu ▸ h.used, hu ▸ h.drawn, h.apart, h.locked, fun j p τ ha => ?_,
    fun j p τ he => ?_⟩
  · rcases ha.of_cons with ⟨_, he⟩ | ha
    · cases he
    · exact h.acquired j p τ ha
  · rcases he.of_cons with ⟨⟨_, _, he⟩, ha⟩ | he
    · cases he
      refine (h.acquired i p τ ha).resolve_left fun hj => ?_
      rw [Function.update_self] at hj
      cases hj
    · exact h.exited j p τ he

end Gripped

theorem leaseEvent_lockFree {c : Cmd Text Event} (hc : c.lockFree = true) (r : c.Answer) :
    leaseEvent (.cmd i c r) = none := by
  cases c with
  | acquireLock _ _ _ | evalRelease _ _ => cases hc
  | _ => rfl

theorem owner_cancelFuture (w : World Text Event) (n : Nat) :
    owner (w.cancelFuture n) = owner w ∧ (w.cancelFuture n).usedIds = w.usedIds := by
  unfold World.cancelFuture
  split
  · split <;> exact ⟨rfl, rfl⟩
  · exact ⟨rfl, rfl⟩

theorem owner_cancelHeartbeat (w : World Text Event) (τ : String) :
    owner (w.cancelHeartbeat τ) = owner w ∧ (w.cancelHeartbeat τ).usedIds = w.usedIds := by
  unfold World.cancelHeartbeat
  split
  · split <;> exact ⟨rfl, rfl⟩
  · exact ⟨rfl, rfl⟩

theorem exec_lockFree {c : Cmd Text Event} {r : c.Answer} (hc : c.lockFree = true)
    (h : exec c r w w') : owner w' = owner w ∧ w.usedIds ⊆ w'.usedIds := by
  cases c with
  | acquireLock _ _ _ | evalRelease _ _ => cases hc
  | setNx _ _ | brpop =>
    simp only [exec] at h
    split at h <;> obtain ⟨_, rfl⟩ := h <;> exact ⟨rfl, List.Subset.refl _⟩
  | uuid4 =>
    obtain ⟨u, _, _, rfl⟩ := h
    exact ⟨rfl, List.subset_cons_self u _⟩
  | cancelHeartbeat τ =>
    obtain ⟨_, rfl⟩ := h
    obtain ⟨ho, hu⟩ := owner_cancelHeartbeat w τ
    exact ⟨ho, hu ▸ List.Subset.refl _⟩
  | awaitFuture n timeout =>
    obtain ⟨ho, hu⟩ := owner_cancelFuture w n
    obtain ⟨_, _, _, _, _, rfl⟩ | ⟨_, _, rfl⟩ := h
    · exact ⟨rfl, List.Subset.refl _⟩
    · exact ⟨ho, hu ▸ List.Subset.refl _⟩
  | _ =>
    obtain ⟨_, rfl⟩ := h
    exact ⟨rfl, List.Subset.refl _⟩

theorem giveUp_lockFree (c : Cmd Text Event) (w : World Text Event) :
    owner (c.giveUp w) = owner w ∧ w.usedIds ⊆ (c.giveUp w).usedIds := by
  cases c with
  | awaitFuture n timeout =>
    obtain ⟨ho, hu⟩ := owner_cancelFuture w n
    exact ⟨ho, hu ▸ List.Subset.refl _⟩
  | _ => exact ⟨rfl, List.Subset.refl _⟩

theorem owner_evalRefresh (w : World Text Event) (p τ : String) (ttl : Nat) :
    owner (w.onRedis (·.evalRefresh p τ ttl)) = owner w := by
  funext q
  simp only [owner, World.onRedis, Redis.evalRefresh]
  split
  · rename_i hh
    simp only [Redis.setLock, Function.update_apply]
    split
    · rename_i he
      subst he
      unfold Redis.holds at hh
      cases hl : w.redis.locks q with
      | none => simp only [hl, Option.any_none, Bool.false_eq_true] at hh
      | some l =>
        simp only [hl, Option.any_some, decide_eq_true_eq] at hh
        simp only [Option.map_some, hh]
    · rfl
  · rfl

theorem owner_tick {S : Setup Event} {e : Tick} (he : ∀ p, e ≠ .expire p) (ht : tick S e w w') :
    owner w' = owner w := by
  cases e with
  | expire p => exact absurd rfl (he p)
  | elapse p =>
    obtain ⟨l, hl, _, rfl⟩ := ht
    funext q
    simp only [owner, World.onRedis, Redis.setLock, Function.update_apply]
    split
    · rename_i hq
      rw [hq, hl]
      rfl
    · rfl
  | refresh τ held =>
    obtain ⟨hb, _, _, _, rfl⟩ := ht
    exact owner_evalRefresh w hb.projectName τ S.settings.lockTtl
  | beat τ | threadStart n =>
    obtain ⟨_, _, _, rfl⟩ := ht
    rfl
  | beatFails τ e | threadEnd n =>
    obtain ⟨_, _, _, _, rfl⟩ := ht
    rfl
  | threadPublish n =>
    obtain ⟨_, _, _, _, _, _, _, _, rfl⟩ := ht
    rfl
  | threadFails n e =>
    obtain ⟨_, _, _, _, _, _, rfl⟩ := ht
    rfl
  | stop =>
    cases ht
    rfl

theorem Gripped.tick {S : Setup Event} {e : Tick} (h : Gripped tr w ds) (ht : tick S e w w') :
    Gripped (.env e :: tr) w' ds := by
  have hu : w.usedIds ⊆ w'.usedIds := tick_usedIds ht ▸ List.Subset.refl _
  cases e with
  | expire p =>
    obtain ⟨_, rfl⟩ := ht
    exact h.expire p
  | _ =>
    have ho : owner w' = owner w := owner_tick (fun p he => by cases he) ht
    exact h.pass rfl (fun _ _ _ he => by cases he) ho hu

end

variable [TaskJson Text]

def locking (Text : Type) [TaskJson Text] (S : Setup Event) : Assertion (system Text S) Grip where
  ok := lockable
  inv := Gripped
  guar _ _ _ := True

section
variable {S : Setup Event} {i : Nat}

theorem frames_lockFree (d : Grip) :
    (locking Text S).Frames i (fun c : Cmd Text Event => c.lockFree = true) d := by
  rintro c hc tr w ds l r w' hi - ha hok
  refine ⟨trivial, ?_⟩
  cases ha with
  | cmd h =>
    obtain ⟨ho, hu⟩ := exec_lockFree hc h
    exact hi.pass (leaseEvent_lockFree hc r) (fun _ _ _ he => by cases he) ho hu
  | abort h =>
    obtain ⟨_, _, _, rfl | ⟨a, h⟩⟩ := h
    · obtain ⟨ho, hu⟩ := giveUp_lockFree c w
      exact hi.pass rfl (fun _ _ _ he => by cases he) ho hu
    · obtain ⟨ho, hu⟩ := exec_lockFree hc h
      exact hi.pass rfl (fun _ _ _ he => by cases he) ho hu

theorem wp_lockFree {p : Py Text Event σ α} {Q : α → σ → Grip → Prop} {X : Exc → σ → Grip → Prop}
    (hp : Asks (fun c => c.lockFree = true) p) (hQ : ∀ a s, Q a s d) (hX : ∀ e s, X e s d) :
    Wp (locking Text S) i p Q X s d := by
  apply Wp.mono (Wp.of_within hp (frames_lockFree d))
  · rintro a s' _ rfl
    exact hQ a s'
  · rintro e s' _ rfl
    exact hX e s'

theorem wp_token {Q : String → σ → Grip → Prop} {X : Exc → σ → Grip → Prop} (hd : d.Free)
    (hQ : ∀ τ, Q τ s (.drawn τ)) : Wp (locking Text S) i (ask .uuid4) Q X s d := by
  apply Wp.call
  rintro tr w ds l r w' hi rfl ha -
  cases ha with
  | cmd h =>
    obtain ⟨τ, hτ, rfl, rfl⟩ := h
    exact ⟨trivial, .drawn τ, hi.draw hd hτ, hQ τ⟩
  | abort h =>
    obtain ⟨_, _, ⟨hc, _⟩ | ⟨hc, _⟩, _⟩ := h <;> cases hc

theorem wp_acquireLock {Q : Bool → σ → Grip → Prop} {X : Exc → σ → Grip → Prop}
    (hQ : Q true s (.locked p τ)) (hn : Q false s (.drawn τ)) :
    Wp (locking Text S) i (acquireLock p τ ttl) Q X s (.drawn τ) := by
  apply Wp.call
  intro tr w ds l r w' hi hd ha hok
  cases ha with
  | cmd h =>
    have h : exec (.acquireLock p τ ttl) r w w' := h
    simp only [exec] at h
    split at h <;> obtain ⟨⟨rfl, -⟩, rfl⟩ := h
    · refine ⟨trivial, .drawn τ, ?_, hn⟩
      rw [← hd, Function.update_eq_self]
      exact hi.pass rfl (fun _ _ _ he => by cases he) rfl (List.Subset.refl _)
    · rename_i hl
      exact ⟨trivial, .locked p τ, hi.acquire hd hl, hQ⟩
  | abort h => cases hok

theorem wp_releaseLock {Q : Unit → σ → Grip → Prop} {X : Exc → σ → Grip → Prop}
    (hQ : Q () s .idle) : Wp (locking Text S) i (releaseLock p τ) Q X s (.locked p τ) := by
  apply Wp.call
  intro tr w ds l r w' hi hd ha hok
  cases ha with
  | cmd h =>
    obtain ⟨rfl, rfl⟩ := h
    exact ⟨trivial, .idle, hi.release hd, hQ⟩
  | abort h => cases hok

theorem lockFree_of_locked {c : Cmd Text Event} (h : c.locked) : c.lockFree = true := by
  cases c with
  | acquireLock _ _ _ | evalRelease _ _ => exact absurd h.2 not_false
  | _ => rfl

theorem lockFree_of_request {c : Cmd Text Event} (h : c.request) : c.lockFree = true := by
  cases c with
  | acquireLock _ _ _ | evalRelease _ _ => exact absurd h.2 not_false
  | _ => rfl

theorem lockFree_of_recovery {c : Cmd Text Event} (h : c.recovery) : c.lockFree = true := by
  cases c with
  | acquireLock _ _ _ | evalRelease _ _ => exact absurd h.2 not_false
  | _ => rfl

theorem free_idle : Grip.Free .idle := fun _ _ h => by cases h

theorem free_drawn (τ : String) : (Grip.drawn τ).Free := fun _ _ h => by cases h

/-- A command that never raises, with the lock or without. -/
theorem wp_sure_lock {c : Cmd Text Event} {Q : c.Reply → σ → Grip → Prop}
    {X : Exc → σ → Grip → Prop} (hc : c.lockFree = true) (hs : c.sure = true)
    (ho : c.onRedis = false) (hQ : ∀ a, Q a s d) : Wp (locking Text S) i (ask c) Q X s d := by
  apply Wp.call
  intro tr w ds l r w' hi hd ha hok
  obtain ⟨hg, hi'⟩ := frames_lockFree d c hc tr w ds l r w' hi hd ha hok
  refine ⟨hg, d, by rwa [← hd, Function.update_eq_self], ?_⟩
  cases r with
  | ok a => exact hQ a
  | error e =>
    exfalso
    cases ha with
    | cmd h => exact not_fails_of_plain (plain_of_sure hs) True e (exec_error h)
    | abort h =>
      obtain ⟨_, _, ⟨hw, _⟩ | ⟨hr, _⟩, _⟩ := h
      · rw [not_awaited_of_sure hs] at hw
        cases hw
      · rw [ho] at hr
        cases hr

/-- However the guarded part ends, the clean-up sends the release. -/
theorem wp_cleanUp_lock {Q : Unit → Task → Grip → Prop} {X : Exc → Task → Grip → Prop}
    (hQ : ∀ s, Q () s .idle) :
    Wp (locking Text S) i (Worker.cleanUp p τ) Q X s (.locked p τ) := by
  unfold Worker.cleanUp
  apply Wp.bind
  apply wp_sure_lock rfl rfl rfl
  intro _
  apply Wp.bind
  apply Wp.attempt
  apply wp_lockFree (asks rfl)
  · exact fun _ s => wp_releaseLock (hQ s)
  · exact fun _ s => wp_releaseLock (hQ s)

theorem wp_execute_lock {t : Task} :
    Wp (locking Text S) i (Worker.execute S) (fun _ _ d => d.Free) (fun _ _ d => d.Free) t
      .idle := by
  unfold Worker.execute
  apply Wp.bind
  apply Wp.object
  apply Wp.bind
  apply wp_token free_idle
  intro τ
  apply Wp.bind
  apply wp_acquireLock
  · simp only [↓reduceIte]
    apply Wp.bind
    apply wp_sure_lock rfl rfl rfl
    intro _
    apply Wp.ensure
    apply wp_lockFree (asks_guarded.mono fun _ => lockFree_of_locked)
    · exact fun _ s => wp_cleanUp_lock fun _ => free_idle
    · exact fun _ s => wp_cleanUp_lock fun _ => free_idle
  · simp only [Bool.false_eq_true, ↓reduceIte]
    have hrest : Asks (fun c : Cmd Text Event => c.lockFree = true) (do
        ask (.log (.lockBusy t.projectName t.taskId))
        TaskQueue.enqueue t
        ask .sleep : Py Text Event Task Unit) :=
      within_bind (asks rfl) fun _ => within_bind (asks rfl) fun _ => asks rfl
    apply wp_lockFree hrest
    · exact fun _ _ => free_drawn τ
    · exact fun _ _ => free_drawn τ

theorem wp_turn_lock {s : Unit} :
    Wp (locking Text S) i (Worker.turn S) (fun _ _ d => d.Free) (fun _ _ d => d.Free) s
      .idle := by
  have hdequeue : Asks (fun c : Cmd Text Event => c.lockFree = true)
      (TaskQueue.dequeue : Py Text Event Unit _) := by
    apply within_bind (asks (p := fun c : Cmd Text Event => c.lockFree = true) rfl)
    intro o
    cases o <;> exact within_pure _
  unfold Worker.turn
  apply Wp.bind
  apply wp_lockFree hdequeue
  · intro o s
    cases o with
    | none => exact Wp.pure _ free_idle
    | some t => exact Wp.on t wp_execute_lock
  · exact fun _ _ => free_idle

theorem locking_body (q : Kind) :
    Safe (locking Text S) i (fun _ d => d.Free) ((system Text S).body q) .idle := by
  apply Wp.start
  cases q with
  | recover =>
    apply Wp.bind
    apply wp_lockFree (asks_recoverStrandedTasks.mono fun _ => lockFree_of_recovery)
    · exact fun _ _ => Wp.pure _ free_idle
    · exact fun _ _ => free_idle
  | worker =>
    apply Wp.bind
    apply Wp.mono wp_turn_lock
    · exact fun _ _ _ hd => Wp.pure _ hd
    · exact fun _ _ _ hd => hd
  | request body =>
    apply Wp.bind
    apply wp_lockFree ((asks_createTask body).mono fun _ => lockFree_of_request)
    · exact fun _ _ => Wp.pure _ free_idle
    · exact fun _ _ => free_idle

theorem locking_sound : (locking Text S).Sound .idle (fun _ _ d => d.Free) World.init where
  start := .init
  spawn := by
    rintro tr w ds i q w' hi hd hs -
    refine ⟨trivial, .idle, ?_, locking_body q⟩
    rw [← hd, Function.update_eq_self]
    have hpass (ho : owner w' = owner w) (hu : w'.usedIds = w.usedIds) :
        Gripped (.spawn i q :: tr) w' ds :=
      hi.pass rfl (fun _ _ _ he => by cases he) ho (hu ▸ List.Subset.refl _)
    cases q <;> obtain ⟨_, rfl⟩ := hs <;> exact hpass rfl rfl
  exit := by
    rintro tr w ds i q b w' o hi hd he -
    have hw : owner w' = owner w ∧ w'.usedIds = w.usedIds := by
      cases q <;> cases b <;> obtain ⟨_, rfl⟩ := he <;> exact ⟨rfl, rfl⟩
    have hx := hi.exit hd hw.1 hw.2 (q := q) (b := b)
    refine ⟨trivial, ?_⟩
    cases o with
    | none => exact hx
    | some q' => exact ⟨.idle, hx, locking_body q'⟩
  env := by
    rintro tr w ds e w' hi he -
    exact ⟨trivial, hi.tick he⟩
  halt := by
    rintro tr w ds w' - - hok
    exact absurd hok not_false

/-- What holds of the lock keys in a state that is reached. -/
structure LockLaw (tr : List (SysLabel Text Event)) (w : World Text Event) : Prop where
  held : ∀ p l, w.redis.locks p = some l → Holding p l.token (leases tr)
  exited : ∀ i p τ, Exited i p τ tr → w.redis.holds p τ = false
  overlap : ∀ p τ υ earlier, .acquire p υ :: earlier <:+ leases tr → Holding p τ earlier →
    Expired p τ earlier

/-- A step that releases or refreshes the lock of `p` for the run with token `τ`. -/
def Attempts (w : World Text Event) (p τ : String) (l : SysLabel Text Event) : Prop :=
  (∃ i r, l = .cmd i (.evalRelease p τ) r) ∨
    ∃ held, l = .env (.refresh τ held) ∧ ∃ hb, w.heartbeats τ = some hb ∧ hb.projectName = p

/-- However executions, expiries and clean-ups interleave, a lock key is held by one that has
not released it, and a run that has lost its key does nothing to it any more. -/
theorem lock_law {tr : List (SysLabel Text Event)} {s : SysConfig Text Event}
    (hr : Run (system Text S) lockable (.idle .init) tr s) :
    LockLaw tr s.world ∧ ∀ l s' p τ, (system Text S).Step s l s' → Attempts s.world p τ l →
      Lost p τ (leases tr) → s'.world.redis.locks = s.world.redis.locks := by
  have hr' : Run (system Text S) (locking Text S).ok (.idle .init) tr s := hr
  obtain ⟨ds, hi⟩ := locking_sound.inv hr'
  refine ⟨⟨fun p l hl => ?_, fun i p τ he => ?_, fun p τ υ earlier hs ht => ?_⟩,
    fun l s' p τ hs ha hlost => ?_⟩
  · exact hi.leases.holding (by rw [owner, hl, Option.map_some])
  · rw [Bool.eq_false_iff]
    exact fun hh => (hi.leases.holding (holds_iff.1 hh)).2 (hi.exited i p τ he)
  · exact hi.leases.overlap hs ht
  · have hne : s.world.redis.holds p τ = false := by
      rw [Bool.eq_false_iff]
      exact fun hh => hi.leases.ne_of_lost hlost (holds_iff.1 hh)
    cases hs with
    | answer hp hans =>
      rcases ha with ⟨i, r, rfl⟩ | ⟨_, rfl, _⟩
      · cases hans with
        | cmd h =>
          obtain ⟨_, rfl⟩ := h
          simp only [World.onRedis, Redis.evalRelease, hne, Bool.false_eq_true, ↓reduceIte]
      · cases hans
    | env he =>
      rcases ha with ⟨_, _, ha⟩ | ⟨_, ha, hb, hhb, rfl⟩
      · cases ha
      · cases ha
        obtain ⟨hb', hhb', _, _, rfl⟩ := he
        rw [hhb] at hhb'
        cases hhb'
        simp only [World.setHeartbeat, World.onRedis, Redis.evalRefresh, hne, Bool.false_eq_true,
          ↓reduceIte]
    | spawn _ _ | exit _ _ | halt _ =>
      rcases ha with ⟨_, _, ha⟩ | ⟨_, ha, _⟩ <;> cases ha

end

instance (tr : List (SysLabel Text Event)) (w : World Text Event) (l : SysLabel Text Event)
    (w' : World Text Event) : Decidable (lockable tr w l w') :=
  match l with
  | .cmd .. | .spawn .. | .exit .. | .env _ => isTrue trivial
  | .abort _ c _ => inferInstanceAs (Decidable (c.lockFree = true))
  | .halt => isFalse id

/-- The lock of a first worker expires, and a second one acquires it. -/
def overlapping : Schedule :=
  twoTasks ++ [.spawn 3 .worker, .spawn 4 .worker] ++ go 3 4 ++ [.env (.expire "p")] ++ go 4 4

theorem lock_law_overlapping : ∃ tr s, DemoRun lockable tr s ∧ Lost "p" "uuu" (leases tr) ∧
    LockLaw tr s.world ∧ ∀ l s' p τ, (system Task demo).Step s l s' → Attempts s.world p τ l →
      Lost p τ (leases tr) → s'.world.redis.locks = s.world.redis.locks := by
  obtain ⟨tr, s, hr, hs⟩ := demoDriver.drive_observe lockable (.idle .init) overlapping
    (fun o => some (leases o.1))
    (show _ = some [.acquire "p" "uuuu", .expire "p", .acquire "p" "uuu"] by decide)
  have hlost : Lost "p" "uuu" (leases tr) := by
    rw [Option.some.inj hs]
    exact .inl ⟨_, List.suffix_cons _ _, List.mem_singleton_self _⟩
  exact ⟨tr, s, hr, hlost, lock_law hr⟩

end Orchestrator
