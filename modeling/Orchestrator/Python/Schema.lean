import Orchestrator.Python.Text

namespace Python
set_option autoImplicit true

/-- An error of a model: where it is, and what it says. -/
structure Issue where
  loc : List String
  msg : String

/-- What the validation of a value finds. An exception that is not a `ValueError` passes through. -/
abbrev Check : Type := Json → Except PyError (List Issue)

/-- The conversions of pydantic to integers and to booleans, with their messages, and `repr` of a
string. -/
structure Pydantic where
  int : Json → Except String Int
  bool : Json → Except String Bool
  repr : String → String

/-- What one check after the other finds. -/
def gather : List (Except PyError (List Issue)) → Except PyError (List Issue)
  | [] => .ok []
  | .error e :: _ => .error e
  | .ok issues :: rest => match gather rest with
    | .ok issues' => .ok (issues ++ issues')
    | .error e => .error e

namespace Check

def found (msg : String) : Except PyError (List Issue) := .ok [⟨[], msg⟩]

def under (key : String) (r : Except PyError (List Issue)) : Except PyError (List Issue) :=
  r.map fun issues => issues.map fun issue => { issue with loc := key :: issue.loc }

def str : Check
  | .str _ => .ok []
  | _ => found "Input should be a valid string"

def int (P : Pydantic) : Check := fun j => match P.int j with
  | .ok _ => .ok []
  | .error msg => found msg

def bool (P : Pydantic) : Check := fun j => match P.bool j with
  | .ok _ => .ok []
  | .error msg => found msg

def dict : Check
  | .obj _ => .ok []
  | _ => found "Input should be a valid dictionary"

def list (item : Check) : Check
  | .arr items => gather (items.mapIdx fun n j => under (toString n) (item j))
  | _ => found "Input should be a valid list"

def optional (c : Check) : Check
  | .null => .ok []
  | j => c j

/-- A validator that comes before the check of the type. -/
def before (f : Json → Except PyError Unit) (c : Check) : Check := fun j => match f j with
  | .ok _ => c j
  | .error e => if e.cls = .valueError then found ("Value error, " ++ e.msg) else .error e

/-- A field with a default: it may be missing. -/
def field (items : List (String × Json)) (f : String × Check) : Except PyError (List Issue) :=
  match items.lookup f.1 with
  | some j => under f.1 (f.2 j)
  | none => .ok []

/-- A model that allows extra keys. -/
def model (name : String) (fields : List (String × Check)) : Check
  | .obj items => gather (fields.map (field items))
  | _ => found ("Input should be a valid dictionary or instance of " ++ name)

end Check

/-- The check finds nothing. -/
def Check.Passes (c : Check) (j : Json) : Prop := c j = .ok []

/-- An exception passes through the check. -/
def Check.Raises (c : Check) (j : Json) : Prop := ∃ e, c j = .error e

theorem gather_eq_nil {rs : List (Except PyError (List Issue))} :
    gather rs = .ok [] ↔ ∀ r ∈ rs, r = .ok [] := by
  induction rs with
  | nil => simp [gather]
  | cons r rs ih =>
    rw [List.forall_mem_cons, ← ih]
    cases r with
    | error e => simp [gather]
    | ok issues =>
      rw [gather]
      cases gather rs with
      | error e => simp
      | ok issues' => simp

theorem gather_error {rs : List (Except PyError (List Issue))} :
    (∃ e, gather rs = .error e) ↔ ∃ r ∈ rs, ∃ e, r = .error e := by
  induction rs with
  | nil => simp [gather]
  | cons r rs ih =>
    rw [List.exists_mem_cons_iff, ← ih]
    cases r with
    | error e => simp [gather]
    | ok issues =>
      rw [gather]
      cases gather rs with
      | error e => simp
      | ok issues' => simp

namespace Check
variable {P : Pydantic} {c : Check} {j : Json} {key name : String} {fields : List (String × Check)}

@[simp] theorem under_eq_nil {r : Except PyError (List Issue)} :
    under key r = .ok [] ↔ r = .ok [] := by
  cases r with
  | error e => simp [under, Except.map]
  | ok issues => simp [under, Except.map]

@[simp] theorem under_error {r : Except PyError (List Issue)} :
    (∃ e, under key r = .error e) ↔ ∃ e, r = .error e := by
  cases r with
  | error e => simp [under, Except.map]
  | ok issues => simp [under, Except.map]

@[simp] theorem passes_str : str.Passes j ↔ ∃ s, j = .str s := by
  cases j <;> simp [Passes, str, found]

@[simp] theorem passes_dict : dict.Passes j ↔ ∃ items, j = .obj items := by
  cases j <;> simp [Passes, dict, found]

@[simp] theorem passes_int : (int P).Passes j ↔ ∃ n, P.int j = .ok n := by
  unfold Passes int
  cases P.int j <;> simp [found]

@[simp] theorem passes_bool : (bool P).Passes j ↔ ∃ b, P.bool j = .ok b := by
  unfold Passes bool
  cases P.bool j <;> simp [found]

@[simp] theorem passes_optional : (optional c).Passes j ↔ j = .null ∨ c.Passes j := by
  cases j <;> simp [Passes, optional]

theorem passes_list : (list c).Passes j ↔ ∃ items, j = .arr items ∧ ∀ x ∈ items, c.Passes x := by
  cases j with
  | arr items =>
    unfold Passes list
    rw [gather_eq_nil]
    simp only [List.mem_mapIdx, forall_exists_index, Json.arr.injEq, exists_eq_left']
    constructor
    · intro h x hx
      obtain ⟨n, hn, rfl⟩ := List.getElem_of_mem hx
      exact under_eq_nil.1 (h _ n hn rfl)
    · rintro h _ n hn rfl
      exact under_eq_nil.2 (h _ (List.getElem_mem hn))
  | _ => simp [Passes, list, found]

theorem passes_before {f : Json → Except PyError Unit} :
    (before f c).Passes j ↔ f j = .ok () ∧ c.Passes j := by
  unfold Passes before
  cases f j with
  | ok _ => simp
  | error e =>
    dsimp only
    split <;> simp [found]

/-- A model is passed by the dictionaries whose fields, where present, pass. -/
theorem passes_model : (model name fields).Passes j ↔ ∃ items, j = .obj items ∧
    ∀ f ∈ fields, ∀ x, items.lookup f.1 = some x → f.2.Passes x := by
  cases j with
  | obj items =>
    unfold Passes model
    rw [gather_eq_nil, List.forall_mem_map]
    have hfield (f : String × Check) : field items f = .ok [] ↔
        ∀ x, items.lookup f.1 = some x → f.2 x = .ok [] := by
      unfold field
      cases items.lookup f.1 <;> simp
    simp only [hfield, Json.obj.injEq, exists_eq_left']
  | _ => simp [Passes, model, found]

@[simp] theorem raises_str : str.Raises j ↔ False := by
  cases j <;> simp [Raises, str, found]

@[simp] theorem raises_dict : dict.Raises j ↔ False := by
  cases j <;> simp [Raises, dict, found]

@[simp] theorem raises_int : (int P).Raises j ↔ False := by
  unfold Raises int
  cases P.int j <;> simp [found]

@[simp] theorem raises_bool : (bool P).Raises j ↔ False := by
  unfold Raises bool
  cases P.bool j <;> simp [found]

@[simp] theorem raises_optional : (optional c).Raises j ↔ j ≠ .null ∧ c.Raises j := by
  cases j <;> simp [Raises, optional]

@[simp] theorem raises_list : (list c).Raises j ↔
    ∃ items, j = .arr items ∧ ∃ x ∈ items, c.Raises x := by
  cases j with
  | arr items =>
    unfold Raises list
    rw [gather_error]
    simp only [List.mem_mapIdx, Json.arr.injEq, exists_eq_left']
    constructor
    · rintro ⟨_, ⟨n, hn, rfl⟩, h⟩
      exact ⟨_, List.getElem_mem hn, under_error.1 h⟩
    · rintro ⟨x, hx, h⟩
      obtain ⟨n, hn, rfl⟩ := List.getElem_of_mem hx
      exact ⟨_, ⟨n, hn, rfl⟩, under_error.2 h⟩
  | _ => simp [Raises, list, found]

theorem raises_before {f : Json → Except PyError Unit} (hc : ¬c.Raises j) :
    (before f c).Raises j ↔ ∃ e, f j = .error e ∧ e.cls ≠ .valueError := by
  unfold Raises before
  cases f j with
  | ok _ => simpa [Raises] using hc
  | error e =>
    dsimp only
    split <;> simp_all [found]

/-- An exception that passes through a model comes out of one of the fields. -/
theorem raises_model : (model name fields).Raises j ↔ ∃ items, j = .obj items ∧
    ∃ f ∈ fields, ∃ x, items.lookup f.1 = some x ∧ f.2.Raises x := by
  cases j with
  | obj items =>
    unfold Raises model
    rw [gather_error]
    have hfield (f : String × Check) : (∃ e, field items f = .error e) ↔
        ∃ x, items.lookup f.1 = some x ∧ f.2.Raises x := by
      unfold field Raises
      cases items.lookup f.1 <;> simp
    have hmap : (∃ r ∈ fields.map (field items), ∃ e, r = .error e) ↔
        ∃ f ∈ fields, ∃ e, field items f = .error e := by
      simp only [List.mem_map, exists_exists_and_eq_and]
    simp only [hmap, hfield, Json.obj.injEq, exists_eq_left']
    exact Iff.rfl
  | _ => simp [Raises, model, found]

/-- A `ValueError` never passes through: it is found. -/
def Foreign (c : Check) : Prop := ∀ j e, c j = .error e → e.cls ≠ .valueError

theorem foreign_of_not_raises (h : ∀ j, ¬c.Raises j) : c.Foreign :=
  fun j e he => absurd ⟨e, he⟩ (h j)

@[simp] theorem foreign_str : str.Foreign := foreign_of_not_raises fun _ => raises_str.1

@[simp] theorem foreign_dict : dict.Foreign := foreign_of_not_raises fun _ => raises_dict.1

@[simp] theorem foreign_int : (int P).Foreign := foreign_of_not_raises fun _ => raises_int.1

@[simp] theorem foreign_bool : (bool P).Foreign := foreign_of_not_raises fun _ => raises_bool.1

@[simp] theorem foreign_strings : (list str).Foreign :=
  foreign_of_not_raises fun _ h => by simp at h

@[simp] theorem foreign_optional (h : c.Foreign) : (optional c).Foreign := by
  intro j e he
  cases j with
  | null => cases he
  | _ => exact h _ e he

@[simp] theorem foreign_before {f : Json → Except PyError Unit} (h : c.Foreign) :
    (before f c).Foreign := by
  intro j e he
  unfold before at he
  split at he
  · exact h j e he
  · split at he
    · cases he
    · rename_i hc
      rwa [← Except.error.inj he]

theorem gather_mem {rs : List (Except PyError (List Issue))} {e : PyError}
    (h : gather rs = .error e) : .error e ∈ rs := by
  induction rs with
  | nil => cases h
  | cons r rs ih =>
    cases r with
    | error e' =>
      obtain rfl := Except.error.inj h
      exact List.mem_cons_self ..
    | ok issues =>
      rw [gather] at h
      cases hg : gather rs with
      | ok issues' =>
        rw [hg] at h
        cases h
      | error e' =>
        rw [hg] at h
        exact List.mem_cons_of_mem _ (ih (hg.trans h))

theorem foreign_model (h : ∀ f ∈ fields, f.2.Foreign) : (model name fields).Foreign := by
  intro j e he
  cases j with
  | obj items =>
    obtain ⟨f, hf, hfe⟩ := List.mem_map.1 (gather_mem he)
    unfold field at hfe
    split at hfe
    · rename_i x _
      cases hx : f.2 x with
      | ok issues =>
        rw [hx] at hfe
        cases hfe
      | error e' =>
        rw [hx] at hfe
        obtain rfl := Except.error.inj hfe
        exact h f hf x e' hx
    · cases hfe
  | _ => cases he

end Check

end Python
