import Orchestrator.Python.Schema

namespace Python
set_option autoImplicit true

/-- A value, or all that is found wrong with it. -/
inductive Validated (α : Type) where
  | ok (a : α)
  | bad (issues : List Issue)

namespace Validated

def issues : Validated α → List Issue
  | ok _ => []
  | bad issues => issues

/-- One more argument. What is wrong with any of them is kept. -/
def seq : Validated (α → β) → Validated α → Validated β
  | ok f, ok a => ok (f a)
  | ok _, bad issues => bad issues
  | bad issues, v => bad (issues ++ v.issues)

@[simp] theorem seq_ok (f : α → β) (a : α) : (ok f).seq (ok a) = ok (f a) := rfl

@[simp] theorem issues_ok (a : α) : (ok a).issues = [] := rfl

@[simp] theorem issues_seq (f : Validated (α → β)) (v : Validated α) :
    (f.seq v).issues = f.issues ++ v.issues := by
  cases f with
  | ok f => cases v <;> rfl
  | bad _ => rfl

/-- Something is found wrong with every value that is refused. -/
def Telling (v : Validated α) : Prop := ∀ issues, v = bad issues → issues ≠ []

theorem telling_ok (a : α) : (ok a).Telling := fun _ h => by cases h

theorem Telling.seq {f : Validated (α → β)} {v : Validated α} (hf : f.Telling) (hv : v.Telling) :
    (f.seq v).Telling := by
  intro issues h
  cases f with
  | ok f =>
    cases v with
    | ok a => cases h
    | bad found =>
      cases h
      exact hv _ rfl
  | bad found =>
    cases h
    intro he
    exact hf found rfl (List.append_eq_nil_iff.1 he).1

end Validated

/-- A field of a model: it is converted where it is there, and may have a default where not. -/
def readField (items : List (String × Json)) (key : String) (read : Json → Except String α)
    (default : Option α) : Validated α :=
  match items.lookup key with
  | some j => match read j with
    | .ok a => .ok a
    | .error msg => .bad [⟨[key], msg⟩]
  | none => match default with
    | some a => .ok a
    | none => .bad [⟨[key], "Field required"⟩]

section
variable {items : List (String × Json)} {key : String} {j : Json} {read : Json → Except String α}
  {default : Option α} {a d : α} {b : Bool}

theorem readField_telling : (readField items key read default).Telling := by
  intro issues h
  unfold readField at h
  split at h
  · split at h
    · cases h
    · cases h
      nofun
  · split at h
    · cases h
    · cases h
      nofun

/-- The error of a field names it. -/
theorem readField_issues : ∀ issue ∈ (readField items key read default).issues,
    issue.loc = [key] := by
  intro issue hi
  unfold readField at hi
  split at hi
  · split at hi
    · cases hi
    · obtain rfl := List.mem_singleton.1 hi
      rfl
  · split at hi
    · cases hi
    · obtain rfl := List.mem_singleton.1 hi
      rfl

theorem readField_of_lookup (hl : items.lookup key = some j) (hr : read j = .ok a) :
    readField items key read default = .ok a := by
  simp only [readField, hl, hr]

/-- A field that may be missing. -/
theorem readField_of_ite (hl : items.lookup key = if b then some j else none)
    (hr : read j = .ok a) : readField items key read (some d) = .ok (if b then a else d) := by
  cases b with
  | true => exact readField_of_lookup hl hr
  | false => simp only [readField, hl, Bool.false_eq_true, ↓reduceIte]

end

end Python
