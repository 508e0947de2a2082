import Mathlib.Data.List.Infix
import Mathlib.Logic.Function.Basic

namespace Concurrency
set_option autoImplicit true

/-- What happens to leases on keys. Each run draws a token of its own. -/
inductive LeaseEvent (κ τ : Type) where
  | acquire (k : κ) (t : τ)
  | release (k : κ) (t : τ)
  | expire (k : κ)
  deriving DecidableEq

/-- The run with this token has acquired the key and not released it. -/
def Holding (k : κ) (t : τ) (es : List (LeaseEvent κ τ)) : Prop :=
  .acquire k t ∈ es ∧ .release k t ∉ es

/-- The key has expired since the run acquired it. -/
def Expired (k : κ) (t : τ) (es : List (LeaseEvent κ τ)) : Prop :=
  ∃ earlier, .expire k :: earlier <:+ es ∧ .acquire k t ∈ earlier

/-- The key has expired, or another run has acquired it, since the run did. -/
def Lost (k : κ) (t : τ) (es : List (LeaseEvent κ τ)) : Prop :=
  Expired k t es ∨ ∃ u earlier, u ≠ t ∧ .acquire k u :: earlier <:+ es ∧ .acquire k t ∈ earlier

def LeaseEvent.token : LeaseEvent κ τ → Option τ
  | .acquire _ t | .release _ t => some t
  | .expire _ => none

def Mentioned (t : τ) (es : List (LeaseEvent κ τ)) : Prop := ∃ e ∈ es, e.token = some t

section
variable {e : LeaseEvent κ τ} {es : List (LeaseEvent κ τ)} {k : κ} {t : τ}

theorem mentioned_cons : Mentioned t (e :: es) ↔ e.token = some t ∨ Mentioned t es := by
  simp only [Mentioned, List.mem_cons, exists_eq_or_imp]

theorem Holding.cons (h : Holding k t es) (he : e ≠ .release k t) : Holding k t (e :: es) :=
  ⟨List.mem_cons_of_mem e h.1, fun hm => (List.mem_cons.1 hm).elim (fun hr => he hr.symm) h.2⟩

theorem Holding.of_cons (h : Holding k t (e :: es)) (he : e ≠ .acquire k t) : Holding k t es :=
  ⟨(List.mem_cons.1 h.1).resolve_left fun ha => he ha.symm,
    fun hm => h.2 (List.mem_cons_of_mem e hm)⟩

theorem Expired.acquired (h : Expired k t es) : LeaseEvent.acquire k t ∈ es := by
  obtain ⟨earlier, hs, hm⟩ := h
  exact hs.subset (List.mem_cons_of_mem _ hm)

theorem Lost.acquired (h : Lost k t es) : LeaseEvent.acquire k t ∈ es := by
  rcases h with h | ⟨u, earlier, _, hs, hm⟩
  · exact h.acquired
  · exact hs.subset (List.mem_cons_of_mem _ hm)

variable (e) in
theorem Expired.cons (h : Expired k t es) : Expired k t (e :: es) := by
  obtain ⟨earlier, hs, hm⟩ := h
  exact ⟨earlier, hs.trans (List.suffix_cons e es), hm⟩

theorem lost_cons (h : Lost k t (e :: es)) : Lost k t es ∨
    .acquire k t ∈ es ∧ (e = .expire k ∨ ∃ u, u ≠ t ∧ e = .acquire k u) := by
  rcases h with ⟨earlier, hs, hm⟩ | ⟨u, earlier, hne, hs, hm⟩
  · rcases List.suffix_cons_iff.1 hs with he | hs
    · cases he
      exact .inr ⟨hm, .inl rfl⟩
    · exact .inl (.inl ⟨earlier, hs, hm⟩)
  · rcases List.suffix_cons_iff.1 hs with he | hs
    · cases he
      exact .inr ⟨hm, .inr ⟨u, hne, rfl⟩⟩
    · exact .inl (.inr ⟨u, earlier, hne, hs, hm⟩)

end

variable [DecidableEq κ] [DecidableEq τ]

/-- The events so far, latest first, and who has each key after them. A key is acquired when it
is free, with a token that is new, and a release compares before it deletes. -/
inductive Leases : List (LeaseEvent κ τ) → (κ → Option τ) → Prop where
  | nil : Leases [] fun _ => none
  | acquire (h : Leases es own) (hk : own k = none) (ht : ¬Mentioned t es) :
      Leases (.acquire k t :: es) (Function.update own k (some t))
  | release (h : Leases es own) : Leases (.release k t :: es)
      (if own k = some t then Function.update own k none else own)
  | expire (h : Leases es own) : Leases (.expire k :: es) (Function.update own k none)

namespace Leases
variable {es : List (LeaseEvent κ τ)} {own : κ → Option τ} {k : κ} {t u : τ}

theorem holding (h : Leases es own) (ht : own k = some t) : Holding k t es := by
  induction h with
  | nil => cases ht
  | @acquire es own k' t' h hk hn ih =>
    by_cases he : k = k'
    · subst he
      rw [Function.update_self] at ht
      cases ht
      refine ⟨List.mem_cons_self, fun hm => ?_⟩
      rcases List.mem_cons.1 hm with hr | hr
      · cases hr
      · exact hn ⟨_, hr, rfl⟩
    · rw [Function.update_of_ne he] at ht
      exact (ih ht).cons (by simp only [ne_eq, reduceCtorEq, not_false_eq_true])
  | @release es own k' t' h ih =>
    split at ht
    · by_cases he : k = k'
      · subst he
        rw [Function.update_self] at ht
        cases ht
      · rw [Function.update_of_ne he] at ht
        refine (ih ht).cons fun hr => he ?_
        cases hr
        rfl
    · rename_i hk'
      refine (ih ht).cons fun hr => hk' ?_
      cases hr
      exact ht
  | @expire es own k' h ih =>
    by_cases he : k = k'
    · subst he
      rw [Function.update_self] at ht
      cases ht
    · rw [Function.update_of_ne he] at ht
      exact (ih ht).cons (by simp only [ne_eq, reduceCtorEq, not_false_eq_true])

/-- A run that has not released its key still has it, unless the key has expired. -/
theorem kept (h : Leases es own) (ht : Holding k t es) : own k = some t ∨ Expired k t es := by
  induction h with
  | nil => cases ht.1
  | @acquire es own k' t' h hk hn ih =>
    by_cases he : k' = k ∧ t' = t
    · obtain ⟨rfl, rfl⟩ := he
      exact .inl (Function.update_self ..)
    · have hne : LeaseEvent.acquire k' t' ≠ .acquire k t := by
        simpa only [ne_eq, LeaseEvent.acquire.injEq] using he
      rcases ih (ht.of_cons hne) with ho | hx
      · have hkk : k ≠ k' := by
          rintro rfl
          rw [hk] at ho
          cases ho
        exact .inl (by rw [Function.update_of_ne hkk, ho])
      · exact .inr (hx.cons _)
  | @release es own k' t' h ih =>
    rcases ih (ht.of_cons (by simp only [ne_eq, reduceCtorEq, not_false_eq_true])) with ho | hx
    · left
      split
      · rename_i hk'
        have hne : k ≠ k' := by
          rintro rfl
          rw [ho] at hk'
          cases hk'
          exact ht.2 List.mem_cons_self
        rw [Function.update_of_ne hne, ho]
      · exact ho
    · exact .inr (hx.cons _)
  | @expire es own k' h ih =>
    have hes := ht.of_cons (by simp only [ne_eq, reduceCtorEq, not_false_eq_true])
    rcases ih hes with ho | hx
    · by_cases he : k = k'
      · subst he
        exact .inr ⟨es, List.suffix_refl _, hes.1⟩
      · exact .inl (by rw [Function.update_of_ne he, ho])
    · exact .inr (hx.cons _)

/-- A key that was lost is not had again. -/
theorem ne_of_lost (h : Leases es own) (ht : Lost k t es) : own k ≠ some t := by
  induction h with
  | nil => cases ht.acquired
  | @acquire es own k' t' h hk hn ih =>
    rcases lost_cons ht with hl | ⟨ha, he | ⟨u, hne, he⟩⟩
    · have hne : t ≠ t' := by
        rintro rfl
        exact hn ⟨_, hl.acquired, rfl⟩
      by_cases he : k = k'
      · subst he
        rw [Function.update_self]
        exact fun h => hne (Option.some.inj h).symm
      · rw [Function.update_of_ne he]
        exact ih hl
    · cases he
    · cases he
      rw [Function.update_self]
      exact fun h => hne (Option.some.inj h)
  | @release es own k' t' h ih =>
    rcases lost_cons ht with hl | ⟨ha, he | ⟨u, hne, he⟩⟩
    · split
      · by_cases he : k = k'
        · subst he
          rw [Function.update_self]
          exact fun h => Option.some_ne_none t h.symm
        · rw [Function.update_of_ne he]
          exact ih hl
      · exact ih hl
    · cases he
    · cases he
  | @expire es own k' h ih =>
    by_cases he : k = k'
    · subst he
      rw [Function.update_self]
      exact fun h => Option.some_ne_none t h.symm
    · rw [Function.update_of_ne he]
      rcases lost_cons ht with hl | ⟨ha, hx | ⟨u, hne, hx⟩⟩
      · exact ih hl
      · cases hx
        exact absurd rfl he
      · cases hx

theorem suffix (h : Leases es own) {earlier : List (LeaseEvent κ τ)} (hs : earlier <:+ es) :
    ∃ own, Leases earlier own := by
  induction h with
  | nil =>
    rw [List.suffix_nil.1 hs]
    exact ⟨_, .nil⟩
  | acquire h hk ht ih =>
    rcases List.suffix_cons_iff.1 hs with rfl | hs
    · exact ⟨_, .acquire h hk ht⟩
    · exact ih hs
  | release h ih =>
    rcases List.suffix_cons_iff.1 hs with rfl | hs
    · exact ⟨_, .release h⟩
    · exact ih hs
  | expire h ih =>
    rcases List.suffix_cons_iff.1 hs with rfl | hs
    · exact ⟨_, .expire h⟩
    · exact ih hs

/-- A run acquires a key that another one has not released only after it has expired. -/
theorem overlap (h : Leases es own) {earlier : List (LeaseEvent κ τ)}
    (hs : .acquire k u :: earlier <:+ es) (ht : Holding k t earlier) : Expired k t earlier := by
  obtain ⟨own', h'⟩ := h.suffix hs
  cases h' with
  | acquire h' hk _ =>
    rcases h'.kept ht with ho | hx
    · rw [hk] at ho
      cases ho
    · exact hx

end Leases

end Concurrency
