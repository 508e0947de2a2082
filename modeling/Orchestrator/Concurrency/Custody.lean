import Mathlib.Data.List.Basic
import Mathlib.Logic.Function.Basic

namespace Concurrency
set_option autoImplicit true

/-- Values are stored under their keys. A copy of a live value is in a queue or in the hands of
one holder, and never in two places. -/
structure Custody (key : ν → κ) (live ready : ν → Prop) (rec : κ → Option ν)
    (q : List ν) (own : ι → Option ν) : Prop where
  keyed : ∀ k v, rec k = some v → key v = k
  owner : ∀ i v, own i = some v → rec (key v) = some v ∧ live v ∧ key v ∉ q.map key
  unique : ∀ i j v u, own i = some v → own j = some u → key v = key u → i = j
  queued : ∀ v ∈ q, rec (key v) = some v ∧ live v ∧ ready v
  nodup : (q.map key).Nodup

/-- No live value is lost. -/
def Covered (key : ν → κ) (live : ν → Prop) (rec : κ → Option ν) (q : List ν)
    (own : ι → Option ν) : Prop :=
  ∀ k v, rec k = some v → live v → k ∈ q.map key ∨ ∃ i u, own i = some u ∧ key u = k

theorem update_eq_iff [DecidableEq α] {f : α → β} {i j : α} {a b : β} :
    Function.update f i a j = b ↔ j = i ∧ a = b ∨ j ≠ i ∧ f j = b := by
  by_cases h : j = i
  · subst h
    simp only [Function.update_self, true_and, ne_eq, not_true_eq_false, false_and, or_false]
  · simp only [Function.update_of_ne h, h, false_and, ne_eq, not_false_eq_true, true_and,
      false_or]

namespace Custody
variable {key : ν → κ} {live ready : ν → Prop} {rec : κ → Option ν} {q : List ν}
  {own : ι → Option ν} {i : ι} {v u : ν}

theorem owned (h : Custody key live ready rec q own) (hv : own i = some v) :
    rec (key v) = some v := (h.owner i v hv).1

theorem empty : Custody key live ready (fun _ => none) [] fun _ : ι => none :=
  ⟨fun _ _ hv => (nomatch hv), fun _ _ hv => (nomatch hv), fun _ _ _ _ hv => (nomatch hv),
    fun _ hv => (nomatch hv), List.nodup_nil⟩

theorem clear (h : Custody key live ready rec q own) :
    Custody key live ready rec q fun _ : ι => none :=
  ⟨h.keyed, fun _ _ hv => (nomatch hv), fun _ _ _ _ hv => (nomatch hv), h.queued, h.nodup⟩

/-- A stored live value that is nowhere else goes into the queue. -/
theorem enqueue (h : Custody key live ready rec q own) (hr : rec (key v) = some v)
    (hv : live v) (hy : ready v) (hq : key v ∉ q.map key)
    (ho : ∀ j w, own j = some w → key w ≠ key v) :
    Custody key live ready rec (v :: q) own := by
  constructor
  · exact h.keyed
  · intro j w hj
    obtain ⟨h₁, h₂, h₃⟩ := h.owner j w hj
    refine ⟨h₁, h₂, fun hm => ?_⟩
    rcases List.mem_cons.1 hm with he | hm
    · exact ho j w hj he
    · exact h₃ hm
  · exact h.unique
  · intro w hw
    rcases List.mem_cons.1 hw with rfl | hw
    · exact ⟨hr, hv, hy⟩
    · exact h.queued w hw
  · exact List.nodup_cons.2 ⟨hq, h.nodup⟩

variable [DecidableEq ι]

/-- A holder may let its value go. -/
theorem drop (h : Custody key live ready rec q own) (i : ι) :
    Custody key live ready rec q (Function.update own i none) := by
  have hsub : ∀ j w, Function.update own i none j = some w → own j = some w := by
    intro j w hj
    rcases update_eq_iff.1 hj with ⟨_, hn⟩ | ⟨_, hj⟩
    · cases hn
    · exact hj
  exact ⟨h.keyed, fun j w hj => h.owner j w (hsub j w hj),
    fun j k w w' hj hk => h.unique j k w w' (hsub j w hj) (hsub k w' hk), h.queued, h.nodup⟩

/-- A holder hands its value back to the queue. -/
theorem push (h : Custody key live ready rec q own) (hv : own i = some v) (hy : ready v) :
    Custody key live ready rec (v :: q) (Function.update own i none) := by
  obtain ⟨h₁, h₂, h₃⟩ := h.owner i v hv
  apply (h.drop i).enqueue h₁ h₂ hy h₃
  intro j w hj he
  rcases update_eq_iff.1 hj with ⟨_, hn⟩ | ⟨hji, hj⟩
  · cases hn
  · exact hji (h.unique j i w v hj hv he)

/-- What leaves the queue comes into the hands of the one who took it. -/
theorem pop (h : Custody key live ready rec (q ++ [v]) own) :
    Custody key live ready rec q (Function.update own i (some v)) := by
  have hnd := h.nodup
  rw [List.map_append, List.nodup_append] at hnd
  obtain ⟨hnd, _, hdis⟩ := hnd
  have hv := h.queued v (List.mem_append_right _ (List.mem_singleton_self v))
  have hm : key v ∈ [v].map key := List.mem_singleton_self _
  have hnone : ∀ j w, own j = some w → key w ≠ key v := by
    intro j w hj he
    apply (h.owner j w hj).2.2
    rw [he, List.map_append]
    exact List.mem_append_right _ hm
  constructor
  · exact h.keyed
  · intro j w hj
    rcases update_eq_iff.1 hj with ⟨rfl, he⟩ | ⟨_, hj⟩
    · cases he
      exact ⟨hv.1, hv.2.1, fun hq => hdis _ hq _ hm rfl⟩
    · obtain ⟨h₁, h₂, h₃⟩ := h.owner j w hj
      refine ⟨h₁, h₂, fun hq => h₃ ?_⟩
      rw [List.map_append]
      exact List.mem_append_left _ hq
  · intro j k w w' hj hk he
    rcases update_eq_iff.1 hj with ⟨hji, hw⟩ | ⟨_, hj⟩ <;>
      rcases update_eq_iff.1 hk with ⟨hki, hw'⟩ | ⟨_, hk⟩
    · exact hji.trans hki.symm
    · cases hw
      exact absurd he.symm (hnone k w' hk)
    · cases hw'
      exact absurd he (hnone j w hj)
    · exact h.unique j k w w' hj hk he
  · exact fun w hw => h.queued w (List.mem_append_left _ hw)
  · exact hnd

variable [DecidableEq κ]

/-- A new live value begins in the hands of the one who stores it. -/
theorem create (h : Custody key live ready rec q own) (hr : rec (key v) = none) (hv : live v) :
    Custody key live ready (Function.update rec (key v) (some v)) q
      (Function.update own i (some v)) := by
  have hne : ∀ w, rec (key w) = some w → key w ≠ key v := by
    intro w hw he
    rw [he, hr] at hw
    cases hw
  have hq : key v ∉ q.map key := by
    intro hm
    obtain ⟨w, hw, he⟩ := List.mem_map.1 hm
    exact hne w (h.queued w hw).1 he
  constructor
  · intro k w hk
    rcases update_eq_iff.1 hk with ⟨rfl, he⟩ | ⟨_, hk⟩
    · cases he
      rfl
    · exact h.keyed k w hk
  · intro j w hj
    rcases update_eq_iff.1 hj with ⟨rfl, he⟩ | ⟨_, hj⟩
    · cases he
      exact ⟨Function.update_self .., hv, hq⟩
    · obtain ⟨h₁, h₂, h₃⟩ := h.owner j w hj
      exact ⟨(Function.update_of_ne (hne w h₁) ..).trans h₁, h₂, h₃⟩
  · intro j k w w' hj hk he
    rcases update_eq_iff.1 hj with ⟨hji, hw⟩ | ⟨_, hj⟩ <;>
      rcases update_eq_iff.1 hk with ⟨hki, hw'⟩ | ⟨_, hk⟩
    · exact hji.trans hki.symm
    · cases hw
      exact absurd he.symm (hne w' (h.owned hk))
    · cases hw'
      exact absurd he (hne w (h.owned hj))
    · exact h.unique j k w w' hj hk he
  · intro w hw
    obtain ⟨h₁, h₂, h₃⟩ := h.queued w hw
    exact ⟨(Function.update_of_ne (hne w h₁) ..).trans h₁, h₂, h₃⟩
  · exact h.nodup

/-- Rewriting a stored value that is not queued and that no other holder has. The writer keeps
a live value and lets a dead one go. -/
theorem rewrite (h : Custody key live ready rec q own) (hr : rec (key v) = some u)
    (hq : key v ∉ q.map key) (ho : ∀ j w, own j = some w → key w = key v → j = i)
    {o : Option ν} (hov : ∀ w, o = some w → w = v ∧ live v) :
    Custody key live ready (Function.update rec (key v) (some v)) q
      (Function.update own i o) := by
  constructor
  · intro k w hk
    rcases update_eq_iff.1 hk with ⟨rfl, he⟩ | ⟨_, hk⟩
    · cases he
      rfl
    · exact h.keyed k w hk
  · intro j w hj
    rcases update_eq_iff.1 hj with ⟨rfl, he⟩ | ⟨hji, hj⟩
    · obtain ⟨rfl, hv⟩ := hov w he
      exact ⟨Function.update_self .., hv, hq⟩
    · obtain ⟨h₁, h₂, h₃⟩ := h.owner j w hj
      have hne : key w ≠ key v := fun he => hji (ho j w hj he)
      exact ⟨(Function.update_of_ne hne ..).trans h₁, h₂, h₃⟩
  · intro j k w w' hj hk he
    rcases update_eq_iff.1 hj with ⟨hji, hw⟩ | ⟨_, hj⟩ <;>
      rcases update_eq_iff.1 hk with ⟨hki, hw'⟩ | ⟨_, hk⟩
    · exact hji.trans hki.symm
    · obtain ⟨rfl, _⟩ := hov w hw
      rw [hji, ho k w' hk he.symm]
    · obtain ⟨rfl, _⟩ := hov w' hw'
      rw [hki, ho j w hj he]
    · exact h.unique j k w w' hj hk he
  · intro w hw
    obtain ⟨h₁, h₂, h₃⟩ := h.queued w hw
    have hne : key w ≠ key v := fun he => hq (he ▸ List.mem_map_of_mem hw)
    exact ⟨(Function.update_of_ne hne ..).trans h₁, h₂, h₃⟩
  · exact h.nodup

theorem write (h : Custody key live ready rec q own) (hu : own i = some u) (hk : key v = key u)
    {o : Option ν} (hov : ∀ w, o = some w → w = v ∧ live v) :
    Custody key live ready (Function.update rec (key v) (some v)) q
      (Function.update own i o) := by
  obtain ⟨h₁, _, h₃⟩ := h.owner i u hu
  apply h.rewrite (hk ▸ h₁) (hk ▸ h₃) _ hov
  intro j w hj he
  exact h.unique j i w u hj hu (he.trans hk)

end Custody

namespace Covered
variable [DecidableEq ι] {key : ν → κ} {live : ν → Prop} {rec : κ → Option ν} {q : List ν}
  {own : ι → Option ν} {i : ι} {v u : ν}

theorem push (h : Covered key live rec q own) (hv : own i = some v) :
    Covered key live rec (v :: q) (Function.update own i none) := by
  intro k w hk hw
  rcases h k w hk hw with hq | ⟨j, x, hj, rfl⟩
  · exact .inl (List.mem_cons_of_mem _ hq)
  · by_cases hji : j = i
    · subst hji
      rw [hv] at hj
      cases hj
      exact .inl List.mem_cons_self
    · exact .inr ⟨j, x, by rw [Function.update_of_ne hji, hj], rfl⟩

theorem pop (h : Covered key live rec (q ++ [v]) own) (hi : own i = none) :
    Covered key live rec q (Function.update own i (some v)) := by
  intro k w hk hw
  rcases h k w hk hw with hq | ⟨j, x, hj, rfl⟩
  · rw [List.map_append] at hq
    rcases List.mem_append.1 hq with hq | hq
    · exact .inl hq
    · exact .inr ⟨i, v, Function.update_self .., (List.mem_singleton.1 hq).symm⟩
  · have hji : j ≠ i := by
      rintro rfl
      rw [hi] at hj
      cases hj
    exact .inr ⟨j, x, by rw [Function.update_of_ne hji, hj], rfl⟩

/-- A holder goes on with a value of the same key. -/
theorem keep (h : Covered key live rec q own) {o : Option ν} (ho : o.map key = (own i).map key) :
    Covered key live rec q (Function.update own i o) := by
  intro k w hk hw
  rcases h k w hk hw with hq | ⟨j, x, hj, rfl⟩
  · exact .inl hq
  · by_cases hji : j = i
    · subst hji
      rw [hj, Option.map_some] at ho
      obtain ⟨y, hy, he⟩ := Option.map_eq_some_iff.1 ho
      exact .inr ⟨j, y, by rw [Function.update_self, hy], he⟩
    · exact .inr ⟨j, x, by rw [Function.update_of_ne hji, hj], rfl⟩

/-- A holder may let go of what is queued or not live. -/
theorem release (h : Covered key live rec q own) {o : Option ν}
    (hi : ∀ v w, own i = some v → rec (key v) = some w → live w → key v ∈ q.map key) :
    Covered key live rec q (Function.update own i o) := by
  intro k w hk hw
  rcases h k w hk hw with hq | ⟨j, x, hj, rfl⟩
  · exact .inl hq
  · by_cases hji : j = i
    · subst hji
      exact .inl (hi x w hj hk hw)
    · exact .inr ⟨j, x, by rw [Function.update_of_ne hji, hj], rfl⟩

theorem write [DecidableEq κ] (h : Covered key live rec q own)
    (hi : ∀ w, own i = some w → key w = key v)
    {o : Option ν} (ho : live v → o = some v) :
    Covered key live (Function.update rec (key v) (some v)) q (Function.update own i o) := by
  intro k w hk hw
  rcases update_eq_iff.1 hk with ⟨rfl, he⟩ | ⟨hne, hk⟩
  · cases he
    exact .inr ⟨i, v, by rw [Function.update_self, ho hw], rfl⟩
  · rcases h k w hk hw with hq | ⟨j, x, hj, rfl⟩
    · exact .inl hq
    · have hji : j ≠ i := by
        rintro rfl
        exact hne (hi x hj)
      exact .inr ⟨j, x, by rw [Function.update_of_ne hji, hj], rfl⟩

end Covered

end Concurrency
