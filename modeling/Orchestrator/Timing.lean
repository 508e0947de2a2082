import Orchestrator.Exclusion
import Orchestrator.Progress

namespace Orchestrator
open Concurrency Async
set_option autoImplicit true

/-- The seconds of the lock key of `p` since the execution with token `τ` acquired it, sent a
refresh, or had one answered, whichever came last. -/
def rest (p τ : String) : List (SysLabel Text Event) → Nat
  | [] => 0
  | .cmd _ (.acquireLock _ σ _) (.ok true) :: tr => if σ = τ then 0 else rest p τ tr
  | .env (.beat σ) :: tr => if σ = τ then 0 else rest p τ tr
  | .env (.refresh σ _) :: tr => if σ = τ then 0 else rest p τ tr
  | .env (.elapse q) :: tr => if q = p then rest p τ tr + 1 else rest p τ tr
  | _ :: tr => rest p τ tr

/-- The bound on the rest: `D` for a refresh on its way to Redis, `I` for anything else. -/
def pace (I D : Nat) (w : World Text Event) (τ : String) : Nat :=
  if (w.heartbeats τ).any (·.inflight) then D else I

/-- A lock key goes when its time is used up. The heartbeat of an execution under way is alive, it
sends a refresh `I` seconds after the latest one at most, and a refresh takes `D` seconds at
most. -/
def refreshesInTime (I D : Nat) : Filter Text Event := fun tr w l _ =>
  match l with
  | .env (.expire p) => ∀ lk ∈ w.redis.locks p, lk.ttl = 0
  | .env (.elapse p) => ∀ lk ∈ w.redis.locks p, underway lk.token tr = true →
      rest p lk.token tr < pace I D w lk.token
  | .env (.beatFails τ _) => underway τ tr = false
  | _ => True

/-- No wait for a stream ends while its thread consumes the iterator. -/
def uncut : Filter Text Event := fun _ w l _ =>
  ∀ n ∈ cutOff l, ∀ th ∈ w.threads[n]?, th.consuming = false

/-- Refreshes are in time, and no wait is cut off. -/
def punctual (I D : Nat) : Filter Text Event := fun tr w l w' =>
  refreshesInTime I D tr w l w' ∧ uncut tr w l w'

/-- What the lock key of an execution under way has left, by the state of its heartbeat. -/
inductive Leased (T I D : Nat) (p : String) (lk : Lock) (tr : List (SysLabel Text Event)) :
    Option Heartbeat → Prop where
  | unborn (ht : T ≤ lk.ttl + rest p lk.token tr) (hr : rest p lk.token tr ≤ I) :
      Leased T I D p lk tr none
  | sleeping (ht : T ≤ lk.ttl + rest p lk.token tr) (hr : rest p lk.token tr ≤ I) :
      Leased T I D p lk tr (some ⟨p, .sleeping, false⟩)
  | refreshing (ht : T ≤ lk.ttl + I + rest p lk.token tr) (hr : rest p lk.token tr ≤ D) :
      Leased T I D p lk tr (some ⟨p, .refreshing, true⟩)

theorem Leased.left {T I D : Nat} {p : String} {lk : Lock} {tr : List (SysLabel Text Event)}
    {hb : Option Heartbeat} (h : Leased T I D p lk tr hb) : T ≤ lk.ttl + I + D := by
  cases h with
  | unborn ht hr | sleeping ht hr | refreshing ht hr => omega

/-- Nothing has happened to the lease. -/
theorem Leased.same {T I D : Nat} {p : String} {lk : Lock} {tr tr' : List (SysLabel Text Event)}
    {hb : Option Heartbeat} (h : Leased T I D p lk tr hb)
    (hr : rest p lk.token tr' = rest p lk.token tr) : Leased T I D p lk tr' hb := by
  cases h with
  | unborn ht hi => exact .unborn (hr ▸ ht) (hr ▸ hi)
  | sleeping ht hi => exact .sleeping (hr ▸ ht) (hr ▸ hi)
  | refreshing ht hi => exact .refreshing (hr ▸ ht) (hr ▸ hi)

def Grip.token : Grip → Option String
  | .idle => none
  | .drawn τ | .locked _ τ => some τ

/-- Every lock key of an execution under way is leased. An execution whose heartbeat is still to be
created has a token of its own. -/
structure Paced (T I D : Nat) (tr : List (SysLabel Text Event)) (w : World Text Event)
    (ds : Nat → Grip) : Prop where
  beats : ∀ τ, τ ∉ w.usedIds → w.heartbeats τ = none
  runs : ∀ τ, underway τ tr = true → τ ∈ w.usedIds
  keys : ∀ p lk, w.redis.locks p = some lk → lk.token ∈ w.usedIds
  unborn : ∀ i τ, (ds i).token = some τ → τ ∈ w.usedIds ∧ w.heartbeats τ = none
  apart : ∀ i j τ, (ds i).token = some τ → (ds j).token = some τ → i = j
  drawn : ∀ i τ, ds i = .drawn τ →
    underway τ tr = false ∧ ∀ p lk, w.redis.locks p = some lk → lk.token ≠ τ
  locked : ∀ i p τ, ds i = .locked p τ → ∀ q lk, w.redis.locks q = some lk → lk.token = τ → q = p
  lease : ∀ p lk, w.redis.locks p = some lk → underway lk.token tr = true →
    Leased T I D p lk tr (w.heartbeats lk.token)

section
variable {T I D : Nat} {tr : List (SysLabel Text Event)} {w w' : World Text Event}
  {ds : Nat → Grip} {l : SysLabel Text Event} {i : Nat}

theorem World.setHeartbeat_of_ne {τ σ : String} {hb : Heartbeat} (h : σ ≠ τ) :
    (w.setHeartbeat τ hb).heartbeats σ = w.heartbeats σ := by
  simp only [World.setHeartbeat, Function.update_of_ne h]

theorem World.setHeartbeat_none {τ σ : String} {hb hb' : Heartbeat} (h : w.heartbeats τ = some hb)
    (hσ : w.heartbeats σ = none) : (w.setHeartbeat τ hb').heartbeats σ = none := by
  rw [World.setHeartbeat_of_ne]
  · exact hσ
  · rintro rfl
    rw [h] at hσ
    cases hσ

namespace Paced

/-- No execution is under way where the process has just started. -/
theorem still (hh : w.heartbeats = fun _ => none) (hu : ∀ τ, underway τ tr = false)
    (hk : ∀ p lk, w.redis.locks p = some lk → lk.token ∈ w.usedIds) :
    Paced T I D tr w fun _ => .idle where
  beats τ _ := by rw [hh]
  runs τ h := by
    rw [hu τ] at h
    cases h
  keys := hk
  unborn _ _ h := nomatch h
  apart _ _ _ h := nomatch h
  drawn _ _ h := nomatch h
  locked _ _ _ h := nomatch h
  lease p lk _ h := by
    rw [hu] at h
    cases h

/-- A step that starts no lease. A key that is there was there before, and its lease goes on. -/
theorem step (h : Paced T I D tr w ds) (hu : w.usedIds ⊆ w'.usedIds)
    (hun : ∀ τ, underway τ (l :: tr) = true → underway τ tr = true)
    (hh : ∀ τ, w.heartbeats τ = none → w'.heartbeats τ = none)
    (hk : ∀ p lk', w'.redis.locks p = some lk' → ∃ lk, w.redis.locks p = some lk ∧
      lk'.token = lk.token ∧ (underway lk.token (l :: tr) = true →
        Leased T I D p lk tr (w.heartbeats lk.token) →
        Leased T I D p lk' (l :: tr) (w'.heartbeats lk.token))) :
    Paced T I D (l :: tr) w' ds where
  beats τ hτ := hh τ (h.beats τ fun hm => hτ (hu hm))
  runs τ hτ := hu (h.runs τ (hun τ hτ))
  keys p lk' hlk := by
    obtain ⟨lk, hlk, ht, _⟩ := hk p lk' hlk
    rw [ht]
    exact hu (h.keys p lk hlk)
  unborn j τ hj := ⟨hu (h.unborn j τ hj).1, hh τ (h.unborn j τ hj).2⟩
  apart := h.apart
  drawn j τ hj := by
    obtain ⟨hf, hne⟩ := h.drawn j τ hj
    refine ⟨?_, fun p lk' hlk => ?_⟩
    · rw [Bool.eq_false_iff]
      intro hτ
      rw [hun τ hτ] at hf
      cases hf
    · obtain ⟨lk, hlk, ht, _⟩ := hk p lk' hlk
      rw [ht]
      exact hne p lk hlk
  locked j p τ hj q lk' hlk ht := by
    obtain ⟨lk, hlk, ht', _⟩ := hk q lk' hlk
    exact h.locked j p τ hj q lk hlk (ht'.symm.trans ht)
  lease p lk' hlk hτ := by
    obtain ⟨lk, hlk, ht, hl⟩ := hk p lk' hlk
    rw [ht] at hτ ⊢
    exact hl hτ (h.lease p lk hlk (hun _ hτ))

/-- A step that leaves the keys and the heartbeats of the executions under way alone. -/
theorem pass (h : Paced T I D tr w ds) (hu : w.usedIds ⊆ w'.usedIds)
    (hun : ∀ τ, underway τ (l :: tr) = true → underway τ tr = true)
    (hr : ∀ p τ, rest p τ (l :: tr) = rest p τ tr)
    (hh : ∀ τ, w.heartbeats τ = none → w'.heartbeats τ = none)
    (hs : ∀ τ, underway τ (l :: tr) = true → w'.heartbeats τ = w.heartbeats τ)
    (hk : ∀ p lk, w'.redis.locks p = some lk → w.redis.locks p = some lk) :
    Paced T I D (l :: tr) w' ds := by
  apply h.step hu hun hh
  intro p lk hlk
  refine ⟨lk, hk p lk hlk, rfl, fun hτ hl => ?_⟩
  rw [hs _ hτ]
  exact hl.same (hr p lk.token)

/-- A process may forget its token. -/
theorem forget (h : Paced T I D tr w ds) (i : Nat) :
    Paced T I D tr w (Function.update ds i .idle) := by
  have hsub {j : Nat} {d : Grip} (hj : Function.update ds i .idle j = d) (hne : d ≠ .idle) :
      ds j = d := by
    rcases update_eq_iff.1 hj with ⟨_, he⟩ | ⟨_, hj⟩
    · exact absurd he.symm hne
    · exact hj
  have htoken {j : Nat} {τ : String} (hj : (Function.update ds i .idle j).token = some τ) :
      (ds j).token = some τ := by
    have hne : Function.update ds i .idle j ≠ .idle := by
      intro he
      rw [he] at hj
      cases hj
    rw [hsub rfl hne]
    exact hj
  exact ⟨h.beats, h.runs, h.keys, fun j τ hj => h.unborn j τ (htoken hj),
    fun j k τ hj hk => h.apart j k τ (htoken hj) (htoken hk),
    fun j τ hj => h.drawn j τ (hsub hj nofun), fun j p τ hj => h.locked j p τ (hsub hj nofun),
    h.lease⟩

theorem draw (h : Paced T I D tr w ds) {τ : String} (hτ : τ ∉ w.usedIds) :
    Paced T I D (.cmd i .uuid4 (.ok τ) :: tr) { w with usedIds := τ :: w.usedIds }
      (Function.update ds i (.drawn τ)) := by
  have hp : Paced T I D (.cmd i .uuid4 (.ok τ) :: tr) { w with usedIds := τ :: w.usedIds } ds :=
    h.pass (List.subset_cons_self τ _) (fun _ h => h) (fun _ _ => rfl) (fun _ h => h)
      (fun _ _ => rfl) fun _ _ h => h
  have hne {j : Nat} (hj : (ds j).token = some τ) : False := hτ (h.unborn j τ hj).1
  refine ⟨hp.beats, hp.runs, hp.keys, fun j σ hj => ?_, fun j k σ hj hk => ?_, fun j σ hj => ?_,
    fun j p σ hj => ?_, hp.lease⟩
  · by_cases hji : j = i
    · rw [hji, Function.update_self] at hj
      cases hj
      exact ⟨List.mem_cons_self, h.beats τ hτ⟩
    · rw [Function.update_of_ne hji] at hj
      exact hp.unborn j σ hj
  · by_cases hji : j = i <;> by_cases hki : k = i
    · exact hji.trans hki.symm
    · rw [hji, Function.update_self] at hj
      rw [Function.update_of_ne hki] at hk
      cases hj
      exact (hne hk).elim
    · rw [hki, Function.update_self] at hk
      rw [Function.update_of_ne hji] at hj
      cases hk
      exact (hne hj).elim
    · rw [Function.update_of_ne hji] at hj
      rw [Function.update_of_ne hki] at hk
      exact h.apart j k σ hj hk
  · rcases update_eq_iff.1 hj with ⟨_, he⟩ | ⟨_, hj⟩
    · cases he
      refine ⟨?_, fun p lk hlk ht => hτ (ht ▸ h.keys p lk hlk)⟩
      rw [Bool.eq_false_iff]
      exact fun hun => hτ (h.runs τ hun)
    · exact hp.drawn j σ hj
  · rcases update_eq_iff.1 hj with ⟨_, he⟩ | ⟨_, hj⟩
    · cases he
    · exact hp.locked j p σ hj

/-- The key is set for the whole of its time, and the heartbeat is still to come. -/
theorem acquire (h : Paced T I D tr w ds) {p τ : String} (hd : ds i = .drawn τ)
    (hw : w.redis.locks p = none) :
    Paced T I D (.cmd i (.acquireLock p τ T) (.ok true) :: tr)
      (w.onRedis (·.setLock p (some ⟨τ, T⟩))) (Function.update ds i (.locked p τ)) := by
  have htok : (ds i).token = some τ := by rw [hd]; rfl
  obtain ⟨hused, hbeat⟩ := h.unborn i τ htok
  obtain ⟨_, hnew⟩ := h.drawn i τ hd
  have hlock {q : String} {lk : Lock}
      (hq : (w.onRedis (·.setLock p (some ⟨τ, T⟩))).redis.locks q = some lk) :
      q = p ∧ lk = ⟨τ, T⟩ ∨ q ≠ p ∧ w.redis.locks q = some lk := by
    by_cases hqp : q = p
    · subst hqp
      simp only [World.onRedis, Redis.setLock, Function.update_self] at hq
      exact .inl ⟨rfl, (Option.some.inj hq).symm⟩
    · simp only [World.onRedis, Redis.setLock, Function.update_of_ne hqp] at hq
      exact .inr ⟨hqp, hq⟩
  have hrun {σ : String} : underway σ (.cmd i (.acquireLock p τ T) (.ok true) :: tr) = true ↔
      τ = σ ∨ underway σ tr = true := by
    simp only [underway, Bool.or_eq_true, decide_eq_true_eq]
  refine ⟨h.beats, fun σ hσ => ?_, fun q lk hq => ?_, fun j σ hj => ?_, fun j k σ hj hk => ?_,
    fun j σ hj => ?_, fun j q σ hj q' lk hq' ht => ?_, fun q lk hq hσ => ?_⟩
  · rcases hrun.1 hσ with rfl | hσ
    · exact hused
    · exact h.runs σ hσ
  · rcases hlock hq with ⟨_, rfl⟩ | ⟨_, hq⟩
    · exact hused
    · exact h.keys q lk hq
  · by_cases hji : j = i
    · rw [hji, Function.update_self] at hj
      cases hj
      exact ⟨hused, hbeat⟩
    · rw [Function.update_of_ne hji] at hj
      exact h.unborn j σ hj
  · by_cases hji : j = i <;> by_cases hki : k = i
    · exact hji.trans hki.symm
    · rw [hji, Function.update_self] at hj
      rw [Function.update_of_ne hki] at hk
      cases hj
      exact absurd (h.apart k i τ hk htok) hki
    · rw [hki, Function.update_self] at hk
      rw [Function.update_of_ne hji] at hj
      cases hk
      exact absurd (h.apart j i τ hj htok) hji
    · rw [Function.update_of_ne hji] at hj
      rw [Function.update_of_ne hki] at hk
      exact h.apart j k σ hj hk
  · rcases update_eq_iff.1 hj with ⟨_, he⟩ | ⟨hji, hj⟩
    · cases he
    · obtain ⟨hf, hne⟩ := h.drawn j σ hj
      have hτσ : τ ≠ σ := by
        rintro rfl
        exact hji (h.apart j i τ (by rw [hj]; rfl) htok)
      refine ⟨?_, fun q lk hq => ?_⟩
      · rw [Bool.eq_false_iff]
        intro hσ
        rcases hrun.1 hσ with he | hσ
        · exact hτσ he
        · rw [hσ] at hf
          cases hf
      · rcases hlock hq with ⟨_, rfl⟩ | ⟨_, hq⟩
        · exact hτσ
        · exact hne q lk hq
  · rcases update_eq_iff.1 hj with ⟨_, he⟩ | ⟨hji, hj⟩
    · cases he
      rcases hlock hq' with ⟨rfl, _⟩ | ⟨_, hq'⟩
      · rfl
      · exact absurd ht (hnew q' lk hq')
    · rcases hlock hq' with ⟨_, rfl⟩ | ⟨_, hq'⟩
      · cases ht
        exact absurd (h.apart j i τ (by rw [hj]; rfl) htok) hji
      · exact h.locked j q σ hj q' lk hq' ht
  · have hrest (σ : String) (hσ : τ ≠ σ) :
        rest q σ (.cmd i (.acquireLock p τ T) (.ok true) :: tr) = rest q σ tr := by
      rw [rest, if_neg hσ]
    rcases hlock hq with ⟨rfl, rfl⟩ | ⟨_, hq⟩
    · have hzero : rest q τ (.cmd i (.acquireLock q τ T) (.ok true) :: tr) = 0 := by
        rw [rest, if_pos rfl]
      have hnone : (w.onRedis (·.setLock q (some ⟨τ, T⟩))).heartbeats τ = none := hbeat
      rw [hnone]
      exact .unborn (Nat.le_add_right _ _) (by rw [hzero]; exact Nat.zero_le I)
    · have hne := hnew q lk hq
      rcases hrun.1 hσ with he | hσ
      · exact absurd he.symm hne
      · exact (h.lease q lk hq hσ).same (hrest _ (Ne.symm hne))

/-- A key that is set for an execution that does not learn of it. -/
theorem strand (h : Paced T I D tr w ds) {p τ : String} (hd : ds i = .drawn τ)
    {c : Cmd Text Event} {r : c.Answer} : Paced T I D (.abort i c r :: tr)
      (w.onRedis (·.setLock p (some ⟨τ, T⟩))) (Function.update ds i .idle) := by
  have htok : (ds i).token = some τ := by rw [hd]; rfl
  have hused := (h.unborn i τ htok).1
  have hi := h.forget i
  have hlock {q : String} {lk : Lock}
      (hq : (w.onRedis (·.setLock p (some ⟨τ, T⟩))).redis.locks q = some lk) :
      lk.token = τ ∨ w.redis.locks q = some lk := by
    by_cases hqp : q = p
    · simp only [hqp, World.onRedis, Redis.setLock, Function.update_self] at hq
      exact .inl (congrArg Lock.token (Option.some.inj hq).symm)
    · simp only [World.onRedis, Redis.setLock, Function.update_of_ne hqp] at hq
      exact .inr hq
  have hother {j : Nat} {σ : String}
      (hj : (Function.update ds i .idle j).token = some σ) : σ ≠ τ := by
    rintro rfl
    by_cases hji : j = i
    · rw [hji, Function.update_self] at hj
      cases hj
    · rw [Function.update_of_ne hji] at hj
      exact hji (h.apart j i σ hj htok)
  refine ⟨hi.beats, hi.runs, fun q lk hq => ?_, hi.unborn, hi.apart, fun j σ hj => ?_,
    fun j q σ hj q' lk hq ht => ?_, fun q lk hq hσ => ?_⟩
  · rcases hlock hq with rfl | hq
    · exact hused
    · exact h.keys q lk hq
  · refine ⟨(hi.drawn j σ hj).1, fun q lk hq => ?_⟩
    rcases hlock hq with he | hq
    · rw [he]
      exact (hother (by rw [hj]; rfl)).symm
    · exact (hi.drawn j σ hj).2 q lk hq
  · rcases hlock hq with he | hq
    · exact absurd (ht.symm.trans he) (hother (by rw [hj]; rfl))
    · exact hi.locked j q σ hj q' lk hq ht
  · rcases hlock hq with he | hq
    · rw [he] at hσ
      exact absurd ((h.drawn i τ hd).1.symm.trans hσ) Bool.false_ne_true
    · exact (h.lease q lk hq hσ).same rfl

/-- The heartbeat starts with a sleep. -/
theorem create (h : Paced T I D tr w ds) {p τ : String} (hd : ds i = .locked p τ)
    {r : Except Exc Unit} : Paced T I D (.cmd i (.createHeartbeat p τ) r :: tr)
      (w.setHeartbeat τ ⟨p, .sleeping, false⟩) (Function.update ds i .idle) := by
  have htok : (ds i).token = some τ := by rw [hd]; rfl
  obtain ⟨hused, hbeat⟩ := h.unborn i τ htok
  have hother {σ : String} (hσ : σ ≠ τ) :
      (w.setHeartbeat τ ⟨p, .sleeping, false⟩).heartbeats σ = w.heartbeats σ := by
    simp only [World.setHeartbeat, Function.update_of_ne hσ]
  have hkept {j : Nat} {σ : String}
      (hj : (Function.update ds i .idle j).token = some σ) : (ds j).token = some σ ∧ σ ≠ τ := by
    by_cases hji : j = i
    · rw [hji, Function.update_self] at hj
      cases hj
    · rw [Function.update_of_ne hji] at hj
      refine ⟨hj, ?_⟩
      rintro rfl
      exact hji (h.apart j i σ hj htok)
  have hsub {j : Nat} {d : Grip} (hj : Function.update ds i .idle j = d) (hne : d ≠ .idle) :
      ds j = d := by
    rcases update_eq_iff.1 hj with ⟨_, he⟩ | ⟨_, hj⟩
    · exact absurd he.symm hne
    · exact hj
  refine ⟨fun σ hσ => ?_, h.runs, h.keys, fun j σ hj => ?_,
    fun j k σ hj hk => h.apart j k σ (hkept hj).1 (hkept hk).1,
    fun j σ hj => h.drawn j σ (hsub hj fun he => by cases he),
    fun j q σ hj => h.locked j q σ (hsub hj fun he => by cases he),
    fun q lk hq hσ => ?_⟩
  · rw [hother]
    · exact h.beats σ hσ
    · rintro rfl
      exact hσ hused
  · rw [hother (hkept hj).2]
    exact h.unborn j σ (hkept hj).1
  · have hl : Leased T I D q lk (.cmd i (.createHeartbeat p τ) r :: tr)
        (w.heartbeats lk.token) := (h.lease q lk hq hσ).same rfl
    by_cases hτ : lk.token = τ
    · obtain rfl := h.locked i p τ hd q lk hq hτ
      rw [hτ, hbeat] at hl
      have hb : (w.setHeartbeat τ ⟨q, .sleeping, false⟩).heartbeats lk.token =
          some ⟨q, .sleeping, false⟩ := by
        rw [hτ]
        simp only [World.setHeartbeat, Function.update_self]
      rw [hb]
      cases hl with
      | unborn ht hr => exact .sleeping ht hr
    · rw [hother hτ]
      exact hl

theorem elapse (h : Paced T I D tr w ds) {p : String} {lk : Lock}
    (hlk : w.redis.locks p = some lk) (hpos : 0 < lk.ttl)
    (hpace : underway lk.token tr = true → rest p lk.token tr < pace I D w lk.token) :
    Paced T I D (.env (.elapse p) :: tr)
      (w.onRedis (·.setLock p (some { lk with ttl := lk.ttl - 1 }))) ds := by
  refine h.step (List.Subset.refl _) (fun _ hτ => hτ) (fun _ hτ => hτ) fun q lk' hq => ?_
  by_cases hqp : q = p
  · subst hqp
    simp only [World.onRedis, Redis.setLock, Function.update_self] at hq
    obtain rfl := Option.some.inj hq
    refine ⟨lk, hlk, rfl, fun hτ hl => ?_⟩
    have hrest : rest q lk.token (.env (.elapse q) :: tr) = rest q lk.token tr + 1 := by
      rw [rest, if_pos rfl]
    have hlt := hpace hτ
    unfold pace at hlt
    show Leased _ _ _ _ _ _ (w.heartbeats lk.token)
    -- A second less to live is a second more of rest.
    cases hb : w.heartbeats lk.token with
    | none =>
      rw [hb] at hl hlt
      cases hl with
      | unborn ht hr => exact .unborn (by rw [hrest]; dsimp only; omega) (by rw [hrest]; exact hlt)
    | some b =>
      rw [hb] at hl hlt
      cases hl with
      | sleeping ht hr =>
        exact .sleeping (by rw [hrest]; dsimp only; omega) (by rw [hrest]; exact hlt)
      | refreshing ht hr =>
        exact .refreshing (by rw [hrest]; dsimp only; omega) (by rw [hrest]; exact hlt)
  · simp only [World.onRedis, Redis.setLock, Function.update_of_ne hqp] at hq
    refine ⟨lk', hq, rfl, fun _ hl => hl.same ?_⟩
    rw [rest, if_neg (Ne.symm hqp)]

theorem beat (h : Paced T I D tr w ds) {τ : String} {hb : Heartbeat}
    (hhb : w.heartbeats τ = some hb) (hs : hb.state = .sleeping) :
    Paced T I D (.env (.beat τ) :: tr)
      (w.setHeartbeat τ { hb with state := .refreshing, inflight := true }) ds := by
  refine h.step (List.Subset.refl _) (fun _ hτ => hτ) (fun _ => World.setHeartbeat_none hhb)
    fun p lk hlk => ⟨lk, hlk, rfl, fun _ hl => ?_⟩
  by_cases hτ : lk.token = τ
  · subst hτ
    have hzero : rest p lk.token (.env (.beat lk.token) :: tr) = 0 := by
      rw [rest, if_pos rfl]
    rw [hhb] at hl
    cases hl with
    | sleeping ht hr =>
      simp only [World.setHeartbeat, Function.update_self]
      exact .refreshing (by rw [hzero]; omega) (by rw [hzero]; exact Nat.zero_le D)
    | refreshing _ _ => cases hs
  · rw [World.setHeartbeat_of_ne hτ]
    exact hl.same (by rw [rest, if_neg (Ne.symm hτ)])

/-- The refresh of an execution under way finds the token, and its time begins anew. -/
theorem refresh {S : Setup Event} (h : Paced S.settings.lockTtl I D tr w ds) {τ : String}
    {hb : Heartbeat} (hhb : w.heartbeats τ = some hb) {held : Bool}
    (hheld : held = w.redis.holds hb.projectName τ) :
    Paced S.settings.lockTtl I D (.env (.refresh τ held) :: tr)
      ((w.onRedis (·.evalRefresh hb.projectName τ S.settings.lockTtl)).setHeartbeat τ
        { hb with state := hb.answered S held, inflight := false }) ds := by
  have hrest {p σ : String} (hσ : σ ≠ τ) :
      rest p σ (.env (.refresh τ held) :: tr) = rest p σ tr := by
    rw [rest, if_neg (Ne.symm hσ)]
  have hlock {p : String} {lk' : Lock}
      (hq : (w.redis.evalRefresh hb.projectName τ S.settings.lockTtl).locks p = some lk') :
      w.redis.locks p = some lk' ∧ (p = hb.projectName → lk'.token ≠ τ) ∨
        p = hb.projectName ∧ lk' = ⟨τ, S.settings.lockTtl⟩ ∧
          ∃ lk, w.redis.locks p = some lk ∧ lk.token = τ := by
    unfold Redis.evalRefresh at hq
    split at hq
    · rename_i hh
      by_cases hp : p = hb.projectName
      · subst hp
        simp only [Redis.setLock, Function.update_self] at hq
        obtain ⟨lk, hlk, ht⟩ := (Option.any_eq_true _ _).1 hh
        exact .inr ⟨rfl, (Option.some.inj hq).symm, lk, hlk, of_decide_eq_true ht⟩
      · simp only [Redis.setLock, Function.update_of_ne hp] at hq
        exact .inl ⟨hq, fun he => absurd he hp⟩
    · rename_i hh
      refine .inl ⟨hq, fun hp ht => hh ?_⟩
      rw [← hp, Redis.holds, hq, Option.any_some, decide_eq_true ht]
  refine h.step (List.Subset.refl _) (fun _ hτ => hτ)
    (fun _ => World.setHeartbeat_none (w := w.onRedis _) hhb) fun p lk' hq => ?_
  rcases hlock hq with ⟨hq, hne⟩ | ⟨hp, rfl, lk, hlk, rfl⟩
  · refine ⟨lk', hq, rfl, fun _ hl => ?_⟩
    by_cases hτ : lk'.token = τ
    · rw [hτ, hhb] at hl
      cases hl <;> exact absurd hτ (hne rfl)
    · rw [World.setHeartbeat_of_ne hτ]
      exact hl.same (hrest hτ)
  · refine ⟨lk, hlk, rfl, fun _ hl => ?_⟩
    have hzero : rest p lk.token (.env (.refresh lk.token held) :: tr) = 0 := by
      rw [rest, if_pos rfl]
    have htrue : held = true := by
      rw [hheld, Redis.holds, ← hp, hlk, Option.any_some, decide_eq_true rfl]
    subst htrue
    simp only [World.setHeartbeat, Function.update_self]
    rw [hhb] at hl
    cases hl <;> exact .sleeping (by rw [hzero]; exact Nat.le_add_right _ _)
      (by rw [hzero]; exact Nat.zero_le I)

theorem tick {S : Setup Event} {e : Tick} (h : Paced S.settings.lockTtl I D tr w ds)
    (ht : tick S e w w') (hok : refreshesInTime I D tr w (.env e) w') :
    Paced S.settings.lockTtl I D (.env e :: tr) w' ds := by
  cases e with
  | expire p =>
    obtain ⟨_, rfl⟩ := ht
    refine h.pass (List.Subset.refl _) (fun _ hτ => hτ) (fun _ _ => rfl) (fun _ hτ => hτ)
      (fun _ _ => rfl) fun q lk hq => ?_
    by_cases hqp : q = p
    · simp only [hqp, World.onRedis, Redis.setLock, Function.update_self, reduceCtorEq] at hq
    · simpa only [World.onRedis, Redis.setLock, Function.update_of_ne hqp] using hq
  | elapse p =>
    obtain ⟨lk, hlk, hpos, rfl⟩ := ht
    exact h.elapse hlk hpos (hok lk hlk)
  | beat τ =>
    obtain ⟨hb, hhb, hs, rfl⟩ := ht
    exact h.beat hhb hs
  | refresh τ held =>
    obtain ⟨hb, hhb, _, hheld, rfl⟩ := ht
    exact h.refresh hhb hheld
  | beatFails τ e =>
    obtain ⟨hb, hhb, _, _, rfl⟩ := ht
    refine h.pass (List.Subset.refl _) (fun _ hσ => hσ) (fun _ _ => rfl)
      (fun _ => World.setHeartbeat_none hhb) (fun σ hσ => World.setHeartbeat_of_ne ?_)
      fun _ _ hk => hk
    rintro rfl
    exact Bool.false_ne_true ((show underway σ tr = false from hok).symm.trans hσ)
  | threadStart n =>
    obtain ⟨_, _, _, rfl⟩ := ht
    exact h.pass (List.Subset.refl _) (fun _ hσ => hσ) (fun _ _ => rfl) (fun _ hσ => hσ)
      (fun _ _ => rfl) fun _ _ hk => hk
  | threadPublish n =>
    obtain ⟨_, _, _, _, _, _, _, _, rfl⟩ := ht
    exact h.pass (List.Subset.refl _) (fun _ hσ => hσ) (fun _ _ => rfl) (fun _ hσ => hσ)
      (fun _ _ => rfl) fun _ _ hk => hk
  | threadFails n e =>
    obtain ⟨_, _, _, _, _, _, rfl⟩ := ht
    exact h.pass (List.Subset.refl _) (fun _ hσ => hσ) (fun _ _ => rfl) (fun _ hσ => hσ)
      (fun _ _ => rfl) fun _ _ hk => hk
  | threadEnd n =>
    obtain ⟨_, _, _, _, rfl⟩ := ht
    exact h.pass (List.Subset.refl _) (fun _ hσ => hσ) (fun _ _ => rfl) (fun _ hσ => hσ)
      (fun _ _ => rfl) fun _ _ hk => hk
  | stop =>
    cases ht
    exact h.pass (List.Subset.refl _) (fun _ hσ => hσ) (fun _ _ => rfl) (fun _ hσ => hσ)
      (fun _ _ => rfl) fun _ _ hk => hk

end Paced

/-- Commands that start no lease. -/
def Cmd.leaseFree : Cmd Text Event → Bool
  | .acquireLock .. | .createHeartbeat .. => false
  | _ => true

theorem rest_leaseFree {c : Cmd Text Event} (hc : c.leaseFree = true) (r : c.Answer)
    (p τ : String) : rest p τ (.cmd i c r :: tr) = rest p τ tr := by
  cases c with
  | acquireLock _ _ _ | createHeartbeat _ _ => cases hc
  | _ => rfl

theorem underway_leaseFree {c : Cmd Text Event} (hc : c.leaseFree = true) {r : c.Answer}
    {τ : String} (h : underway τ (.cmd i c r :: tr) = true) :
    underway τ tr = true ∧ c ≠ .cancelHeartbeat τ := by
  cases c with
  | acquireLock _ _ _ | createHeartbeat _ _ => cases hc
  | cancelHeartbeat σ =>
    simp only [underway, Bool.and_eq_true, decide_eq_true_eq] at h
    refine ⟨h.2, fun he => h.1 ?_⟩
    cases he
    rfl
  | _ => exact ⟨h, fun he => by cases he⟩

/-- Keys go and heartbeats stay, but for one that is cancelled. -/
structure Unleased (c : Cmd Text Event) (w w' : World Text Event) : Prop where
  used : w.usedIds ⊆ w'.usedIds
  keys : ∀ p lk, w'.redis.locks p = some lk → w.redis.locks p = some lk
  unborn : ∀ τ, w.heartbeats τ = none → w'.heartbeats τ = none
  beats : ∀ τ, c ≠ .cancelHeartbeat τ → w'.heartbeats τ = w.heartbeats τ

theorem Unleased.of_eq {c : Cmd Text Event} (hu : w.usedIds ⊆ w'.usedIds)
    (hk : w'.redis.locks = w.redis.locks) (hh : w'.heartbeats = w.heartbeats) :
    Unleased c w w' where
  used := hu
  keys p lk h := by rwa [← hk]
  unborn τ h := by rwa [hh]
  beats τ _ := by rw [hh]

theorem unleased_cancelFuture (c : Cmd Text Event) (w : World Text Event) (n : Nat) :
    Unleased c w (w.cancelFuture n) := by
  unfold World.cancelFuture
  split
  · split <;> exact .of_eq (List.Subset.refl _) rfl rfl
  · exact .of_eq (List.Subset.refl _) rfl rfl

theorem unleased_cancelHeartbeat (w : World Text Event) (τ : String) :
    Unleased (.cancelHeartbeat τ) w (w.cancelHeartbeat τ) := by
  unfold World.cancelHeartbeat
  split
  · rename_i hb hhb
    split
    · exact .of_eq (List.Subset.refl _) rfl rfl
    · refine ⟨List.Subset.refl _, fun _ _ h => h, fun _ => World.setHeartbeat_none hhb,
        fun σ hσ => World.setHeartbeat_of_ne ?_⟩
      rintro rfl
      exact hσ rfl
  · exact .of_eq (List.Subset.refl _) rfl rfl

theorem unleased_of_exec {c : Cmd Text Event} {r : c.Answer} (hc : c.leaseFree = true)
    (h : exec c r w w') : Unleased c w w' := by
  cases c with
  | acquireLock _ _ _ | createHeartbeat _ _ => cases hc
  | setNx _ _ | brpop =>
    simp only [exec] at h
    split at h <;> obtain ⟨_, rfl⟩ := h <;> exact .of_eq (List.Subset.refl _) rfl rfl
  | uuid4 =>
    obtain ⟨u, _, _, rfl⟩ := h
    exact .of_eq (List.subset_cons_self u _) rfl rfl
  | cancelHeartbeat τ =>
    obtain ⟨_, rfl⟩ := h
    exact unleased_cancelHeartbeat w τ
  | evalRelease p τ =>
    obtain ⟨_, rfl⟩ := h
    refine ⟨List.Subset.refl _, fun q lk hq => ?_, fun _ h => h, fun _ _ => rfl⟩
    simp only [World.onRedis, Redis.evalRelease] at hq
    split at hq
    · by_cases hqp : q = p
      · simp only [hqp, Redis.setLock, Function.update_self, reduceCtorEq] at hq
      · simpa only [Redis.setLock, Function.update_of_ne hqp] using hq
    · exact hq
  | awaitFuture n timeout =>
    obtain ⟨_, _, _, _, _, rfl⟩ | ⟨_, _, rfl⟩ := h
    · exact .of_eq (List.Subset.refl _) rfl rfl
    · exact unleased_cancelFuture _ w n
  | _ =>
    obtain ⟨_, rfl⟩ := h
    exact .of_eq (List.Subset.refl _) rfl rfl

theorem unleased_giveUp (c : Cmd Text Event) (w : World Text Event) :
    Unleased c w (c.giveUp w) := by
  cases c with
  | awaitFuture n timeout => exact unleased_cancelFuture _ w n
  | _ => exact .of_eq (List.Subset.refl _) rfl rfl

end

variable [TaskJson Text]

def timing (Text : Type) [TaskJson Text] (S : Setup Event) (I D : Nat) :
    Assertion (system Text S) Grip where
  ok := refreshesInTime I D
  inv := Paced S.settings.lockTtl I D
  guar _ _ _ := True

namespace Timing
variable {S : Setup Event} {I D : Nat} {i : Nat} {d : Grip}

theorem frames_leaseFree :
    (timing Text S I D).Frames i (fun c : Cmd Text Event => c.leaseFree = true) d := by
  rintro c hc tr w ds l r w' hi - ha -
  refine ⟨trivial, ?_⟩
  cases ha with
  | cmd h =>
    have hu := unleased_of_exec hc h
    exact hi.pass hu.used (fun τ hτ => (underway_leaseFree hc hτ).1) (rest_leaseFree hc r) hu.unborn
      (fun τ hτ => hu.beats τ (underway_leaseFree hc hτ).2) hu.keys
  | abort h =>
    obtain ⟨e, rfl, hcut, hw⟩ := h
    have hu : Unleased c w w' := by
      rcases hw with rfl | ⟨a, h⟩
      · exact unleased_giveUp c w
      · exact unleased_of_exec hc h
    -- The cancellation of a heartbeat is never cut short.
    have hne (τ : String) : c ≠ .cancelHeartbeat τ := by
      rintro rfl
      rcases hcut with ⟨hc, _⟩ | ⟨hc, _⟩ <;> cases hc
    exact hi.pass hu.used (fun _ hτ => hτ) (fun _ _ => rfl) hu.unborn
      (fun τ _ => hu.beats τ (hne τ)) hu.keys

theorem wp_leaseFree {p : Py Text Event σ α} {Q : α → σ → Grip → Prop}
    {X : Exc → σ → Grip → Prop} (hp : Asks (fun c => c.leaseFree = true) p)
    (hQ : ∀ a s, Q a s d) (hX : ∀ e s, X e s d) : Wp (timing Text S I D) i p Q X s d := by
  apply Wp.mono (Wp.of_within hp frames_leaseFree)
  · rintro a s' _ rfl
    exact hQ a s'
  · rintro e s' _ rfl
    exact hX e s'

theorem wp_draw {Q : String → σ → Grip → Prop} {X : Exc → σ → Grip → Prop}
    (hQ : ∀ τ, Q τ s (.drawn τ)) : Wp (timing Text S I D) i (ask .uuid4) Q X s d := by
  apply Wp.call
  rintro tr w ds l r w' hi - ha -
  cases ha with
  | cmd h =>
    obtain ⟨τ, hτ, rfl, rfl⟩ := h
    exact ⟨trivial, .drawn τ, hi.draw hτ, hQ τ⟩
  | abort h =>
    obtain ⟨_, _, ⟨hc, _⟩ | ⟨hc, _⟩, _⟩ := h <;> cases hc

theorem wp_acquire {Q : Bool → σ → Grip → Prop} {X : Exc → σ → Grip → Prop}
    (hQ : Q true s (.locked p τ)) (hn : Q false s .idle) (hX : ∀ e, X e s .idle) :
    Wp (timing Text S I D) i (acquireLock p τ S.settings.lockTtl) Q X s (.drawn τ) := by
  apply Wp.call
  rintro tr w ds l r w' hi hd ha -
  have hcase {r : Except Exc Bool} {w' : World Text Event}
      (h : exec (.acquireLock p τ S.settings.lockTtl) r w w') : r = .ok false ∧ w' = w ∨
        r = .ok true ∧ w.redis.locks p = none ∧
          w' = w.onRedis (·.setLock p (some ⟨τ, S.settings.lockTtl⟩)) := by
    simp only [exec] at h
    split at h
    · exact .inl ⟨h.1.1, h.2⟩
    · rename_i hl
      exact .inr ⟨h.1.1, hl, h.2⟩
  have hstay (l : SysLabel Text Event)
      (hun : ∀ σ, underway σ (l :: tr) = true → underway σ tr = true)
      (hr : ∀ p σ, rest p σ (l :: tr) = rest p σ tr) :
      Paced S.settings.lockTtl I D (l :: tr) w (Function.update ds i .idle) :=
    (hi.forget i).pass (List.Subset.refl _) hun hr (fun _ h => h) (fun _ _ => rfl) fun _ _ h => h
  cases ha with
  | cmd h =>
    rcases hcase h with ⟨rfl, rfl⟩ | ⟨rfl, hl, rfl⟩
    · exact ⟨trivial, .idle, hstay _ (fun _ h => h) fun _ _ => rfl, hn⟩
    · exact ⟨trivial, .locked p τ, hi.acquire hd hl, hQ⟩
  | abort h =>
    obtain ⟨e, rfl, _, rfl | ⟨a, h⟩⟩ := h
    · exact ⟨trivial, .idle, hstay _ (fun _ h => h) fun _ _ => rfl, hX e⟩
    · refine ⟨trivial, .idle, ?_, hX e⟩
      rcases hcase h with ⟨_, rfl⟩ | ⟨_, hl, rfl⟩
      · exact hstay _ (fun _ h => h) fun _ _ => rfl
      · exact hi.strand hd

theorem wp_create {Q : Unit → σ → Grip → Prop} {X : Exc → σ → Grip → Prop} (hQ : Q () s .idle) :
    Wp (timing Text S I D) i (ask (.createHeartbeat p τ)) Q X s (.locked p τ) := by
  apply Wp.call
  rintro tr w ds l r w' hi hd ha -
  cases ha with
  | cmd h =>
    obtain ⟨rfl, rfl⟩ := h
    exact ⟨trivial, .idle, hi.create hd, hQ⟩
  | abort h =>
    obtain ⟨_, _, ⟨hc, _⟩ | ⟨hc, _⟩, _⟩ := h <;> cases hc

theorem leaseFree_of_locked {c : Cmd Text Event} (h : c.locked) : c.leaseFree = true := by
  cases c with
  | acquireLock _ _ _ | createHeartbeat _ _ => exact absurd h.2 not_false
  | _ => rfl

theorem wp_execute {t : Task} :
    Wp (timing Text S I D) i (Worker.execute S) (fun _ _ _ => True) (fun _ _ _ => True) t
      .idle := by
  unfold Worker.execute
  apply Wp.bind
  apply Wp.object
  apply Wp.bind
  apply wp_draw
  intro τ
  apply Wp.bind
  apply wp_acquire
  · simp only [↓reduceIte]
    apply Wp.bind
    apply wp_create
    have hrest : Asks (fun c : Cmd Text Event => c.leaseFree = true)
        (ensure (Worker.guarded S) (Worker.cleanUp t.projectName τ)) :=
      within_ensure (asks_guarded.mono fun _ => leaseFree_of_locked)
        (asks_cleanUp (fun _ => rfl) (fun _ => rfl) (fun _ _ => rfl) _ _)
    exact wp_leaseFree hrest (fun _ _ => trivial) fun _ _ => trivial
  · simp only [Bool.false_eq_true, ↓reduceIte]
    have hrest : Asks (fun c : Cmd Text Event => c.leaseFree = true) (do
        ask (.log (.lockBusy t.projectName t.taskId))
        TaskQueue.enqueue t
        ask .sleep : Py Text Event Task Unit) :=
      within_bind (asks rfl) fun _ => within_bind (asks rfl) fun _ => asks rfl
    exact wp_leaseFree hrest (fun _ _ => trivial) fun _ _ => trivial
  · exact fun _ => trivial

theorem wp_turn {s : Unit} :
    Wp (timing Text S I D) i (Worker.turn S) (fun _ _ _ => True) (fun _ _ _ => True) s .idle := by
  have hdequeue : Asks (fun c : Cmd Text Event => c.leaseFree = true)
      (TaskQueue.dequeue : Py Text Event Unit _) := by
    apply within_bind (asks (p := fun c : Cmd Text Event => c.leaseFree = true) rfl)
    intro o
    cases o <;> exact within_pure _
  unfold Worker.turn
  apply Wp.bind
  apply wp_leaseFree hdequeue
  · intro o s
    cases o with
    | none => exact Wp.pure _ trivial
    | some t => exact Wp.on t wp_execute
  · exact fun _ _ => trivial

theorem safe_body (q : Kind) :
    Safe (timing Text S I D) i (fun _ _ => True) ((system Text S).body q) .idle := by
  apply Wp.start
  cases q with
  | recover =>
    have hrest : Asks (fun c : Cmd Text Event => c.leaseFree = true)
        (Kind.recover.run S : Py Text Event Unit _) := by
      refine within_bind (asks_recoverStrandedTasks.mono fun c hc => ?_) fun _ => within_pure _
      cases c with
      | acquireLock _ _ _ | createHeartbeat _ _ => exact absurd hc.2 not_false
      | _ => rfl
    exact wp_leaseFree hrest (fun _ _ => trivial) fun _ _ => trivial
  | worker =>
    apply Wp.bind
    exact Wp.mono wp_turn (fun _ _ _ _ => Wp.pure _ trivial) fun _ _ _ h => h
  | request body =>
    have hrest : Asks (fun c : Cmd Text Event => c.leaseFree = true)
        ((Kind.request body).run S : Py Text Event Unit _) := by
      refine within_bind ((asks_createTask body).mono fun c hc => ?_) fun _ => within_pure _
      cases c with
      | acquireLock _ _ _ | createHeartbeat _ _ => exact absurd hc.2 not_false
      | _ => rfl
    exact wp_leaseFree hrest (fun _ _ => trivial) fun _ _ => trivial

theorem sound : (timing Text S I D).Sound .idle (fun _ _ _ => True) World.init where
  start := .still rfl (fun _ => rfl) fun _ _ h => nomatch h
  spawn := by
    rintro tr w ds i q w' hi hd hs -
    refine ⟨trivial, .idle, ?_, safe_body q⟩
    rw [← hd, Function.update_eq_self]
    have hpass (hw : w'.redis = w.redis ∧ w'.usedIds = w.usedIds ∧ w'.heartbeats = w.heartbeats) :
        Paced S.settings.lockTtl I D (.spawn i q :: tr) w' ds := by
      obtain ⟨hr, hu, hh⟩ := hw
      exact hi.pass (hu ▸ List.Subset.refl _) (fun _ h => h) (fun _ _ => rfl)
        (fun _ h => by rwa [hh]) (fun _ _ => by rw [hh]) fun _ _ h => by rwa [← hr]
    cases q <;> obtain ⟨_, rfl⟩ := hs <;> exact hpass ⟨rfl, rfl, rfl⟩
  exit := by
    rintro tr w ds i q b w' o hi - he -
    have hpass (hw : w'.redis = w.redis ∧ w'.usedIds = w.usedIds ∧ w'.heartbeats = w.heartbeats) :
        Paced S.settings.lockTtl I D (.exit i q b :: tr) w' (Function.update ds i .idle) := by
      obtain ⟨hr, hu, hh⟩ := hw
      exact (hi.forget i).pass (hu ▸ List.Subset.refl _) (fun _ h => h) (fun _ _ => rfl)
        (fun _ h => by rwa [hh]) (fun _ _ => by rw [hh]) fun _ _ h => by rwa [← hr]
    have hx : Paced S.settings.lockTtl I D (.exit i q b :: tr) w' (Function.update ds i .idle) := by
      cases q <;> cases b <;> obtain ⟨_, rfl⟩ := he <;> exact hpass ⟨rfl, rfl, rfl⟩
    refine ⟨trivial, ?_⟩
    cases o with
    | none => exact hx
    | some q' => exact ⟨.idle, hx, safe_body q'⟩
  env := by
    rintro tr w ds e w' hi he hok
    exact ⟨trivial, hi.tick he hok⟩
  halt := by
    rintro tr w ds w' hi hh -
    cases hh
    exact ⟨trivial, .still rfl (fun _ => rfl) hi.keys⟩

end Timing

variable {S : Setup Event} {tr : List (SysLabel Text Event)} {s : SysConfig Text Event}

/-- Where refreshes are sent in `I` seconds and take `D` seconds, the lock key of an execution under
way never has less left than its whole time but for these, whatever else goes on. -/
theorem lease_law {I D : Nat} (hr : Run (system Text S) (refreshesInTime I D) (.idle .init) tr s)
    (p : String) (lk : Lock) (hlk : s.world.redis.locks p = some lk)
    (hun : underway lk.token tr = true) : S.settings.lockTtl ≤ lk.ttl + I + D := by
  obtain ⟨ds, hi⟩ := Timing.sound.inv hr
  exact (hi.lease p lk hlk hun).left

/-- Where refreshes are in time, no lock expires under its execution, and where no wait is cut off
either, the iterators of one project are consumed one after the other. -/
theorem exclusion_law {I D : Nat} (hID : I + D < S.settings.lockTtl)
    (hr : Run (system Text S) (punctual I D) (.idle .init) tr s) :
    Run (system Text S) attended (.idle .init) tr s ∧ Exclusive s.world := by
  have hr' : Run (system Text S) (order Text S).ok (.idle .init) tr s := by
    refine hr.refine fun tr s l s' hr _ hok => ⟨fun p hp lk hlk => ?_, hok.2⟩
    obtain ⟨ds, hi⟩ := Timing.sound.inv (hr.refine fun _ _ _ _ _ _ h => h.1)
    rw [Bool.eq_false_iff]
    intro hun
    have hleft := (hi.lease p lk hlk hun).left
    have hzero : lk.ttl = 0 := by
      cases l with
      | env e =>
        cases e with
        | expire q =>
          obtain rfl : q = p := Option.some.inj hp
          exact hok.1 lk hlk
        | _ => cases hp
      | _ => cases hp
    omega
  obtain ⟨ds, hi⟩ := order_sound.inv hr'
  exact ⟨hr', hi.exclusive⟩

instance (I D : Nat) (tr : List (SysLabel Text Event)) (w : World Text Event)
    (l : SysLabel Text Event) (w' : World Text Event) : Decidable (refreshesInTime I D tr w l w') :=
  match l with
  | .cmd .. | .abort .. | .spawn .. | .exit .. | .halt => isTrue trivial
  | .env (.expire p) => inferInstanceAs (Decidable (∀ lk ∈ w.redis.locks p, lk.ttl = 0))
  | .env (.elapse p) => inferInstanceAs (Decidable (∀ lk ∈ w.redis.locks p,
      underway lk.token tr = true → rest p lk.token tr < pace I D w lk.token))
  | .env (.beatFails τ _) => inferInstanceAs (Decidable (underway τ tr = false))
  | .env (.beat _) | .env (.refresh ..) | .env (.threadStart _) | .env (.threadPublish _)
  | .env (.threadFails ..) | .env (.threadEnd _) | .env .stop => isTrue trivial

instance (tr : List (SysLabel Text Event)) (w : World Text Event) (l : SysLabel Text Event)
    (w' : World Text Event) : Decidable (uncut tr w l w') :=
  inferInstanceAs (Decidable (∀ n ∈ cutOff l, ∀ th ∈ w.threads[n]?, th.consuming = false))

instance (I D : Nat) (tr : List (SysLabel Text Event)) (w : World Text Event)
    (l : SysLabel Text Event) (w' : World Text Event) : Decidable (punctual I D tr w l w') :=
  inferInstanceAs (Decidable (refreshesInTime I D tr w l w' ∧ uncut tr w l w'))

/-- Two seconds of a stream, a refresh that takes a second, and another second. -/
def refreshed : Schedule :=
  twoWorkers ++ go 3 11 ++ [.env (.threadStart 0), .env (.elapse "p"), .env (.elapse "p"),
    .env (.beat "uuu"), .env (.elapse "p"), .env (.refresh "uuu" true), .env (.elapse "p")]

theorem lease_law_refreshed : ∃ tr s, DemoRun (refreshesInTime 2 1) tr s ∧
    s.world.redis.locks "p" = some ⟨"uuu", 29⟩ ∧ underway "uuu" tr = true ∧ 30 ≤ 29 + 2 + 1 := by
  obtain ⟨tr, s, hr, hs⟩ := demoDriver.drive_observe (refreshesInTime 2 1) (.idle .init) refreshed
    (fun o => some (o.2.world.redis.locks "p", underway "uuu" o.1))
    (show _ = some (some ⟨"uuu", 29⟩, true) by decide)
  obtain ⟨hlk, hun⟩ := Prod.mk.inj (Option.some.inj hs)
  exact ⟨tr, s, hr, hlk, hun, lease_law hr "p" ⟨"uuu", 29⟩ hlk hun⟩

theorem exclusion_law_refreshed : ∃ tr s, DemoRun (punctual 2 1) tr s ∧
    consumer s.world 0 = some (true, "p") ∧ DemoRun attended tr s ∧ Exclusive s.world := by
  obtain ⟨tr, s, hr, hs⟩ := demoDriver.drive_observe (punctual 2 1) (.idle .init) refreshed
    (fun o => some (consumer o.2.world 0)) (show _ = some (some (true, "p")) by decide)
  exact ⟨tr, s, hr, Option.some.inj hs, exclusion_law (by decide) hr⟩

end Orchestrator
