import Mathlib.Data.List.Basic

namespace Python
set_option autoImplicit true

/-- A format string with one field: what comes before it, and what comes after it. -/
structure Template where
  before : String
  after : String := ""

namespace Template

/-- `template.format(x)`. -/
def format (f : Template) (x : String) : String := f.before ++ x ++ f.after

/-- Neither template begins like the other. -/
def Apart (f g : Template) : Prop :=
  ¬f.before.toList <+: g.before.toList ∧ ¬g.before.toList <+: f.before.toList

instance (f g : Template) : Decidable (f.Apart g) := inferInstanceAs (Decidable (_ ∧ _))

theorem toList_format (f : Template) (x : String) :
    (f.format x).toList = f.before.toList ++ (x.toList ++ f.after.toList) := by
  rw [format, String.toList_append, String.toList_append, List.append_assoc]

@[simp] theorem format_inj {f : Template} {x y : String} : f.format x = f.format y ↔ x = y := by
  constructor
  · intro h
    have hl := congrArg String.toList h
    rw [toList_format, toList_format] at hl
    exact String.toList_inj.1 (List.append_cancel_right (List.append_cancel_left hl))
  · exact congrArg f.format

theorem Apart.format_ne {f g : Template} (h : f.Apart g) (x y : String) :
    f.format x ≠ g.format y := by
  intro he
  have hl := congrArg String.toList he
  rw [toList_format, toList_format] at hl
  rcases List.prefix_or_prefix_of_prefix ⟨_, rfl⟩ ⟨_, hl.symm⟩ with hf | hg
  · exact h.1 hf
  · exact h.2 hg

/-- A template that goes on where the field of another one begins. -/
theorem format_append (f : Template) (s x : String) :
    (⟨f.before ++ s, f.after⟩ : Template).format x = f.format (s ++ x) := by
  rw [format, format, String.append_assoc, String.append_assoc, String.append_assoc,
    String.append_assoc]

end Template

end Python
