import Mathlib.Data.List.Nodup
import Mathlib.Data.Rat.Defs

namespace Python
set_option autoImplicit true

/-- A Python float. Zero has two signs. -/
inductive PyFloat where
  | finite (x : Rat)
  | negZero
  | inf (negative : Bool)
  | nan
  deriving DecidableEq

/-- Python values that JSON can express. A dictionary is the list of its items, and a text may name
a key more than once. -/
inductive Json where
  | null
  | bool (b : Bool)
  | int (n : Int)
  | float (x : PyFloat)
  | str (s : String)
  | arr (items : List Json)
  | obj (fields : List (String × Json))

namespace Json

def truthy : Json → Bool
  | .null => false
  | .bool b => b
  | .int n => n ≠ 0
  | .float (.finite x) => x ≠ 0
  | .float .negZero => false
  | .float _ => true
  | .str s => s ≠ ""
  | .arr items => !items.isEmpty
  | .obj fields => !fields.isEmpty

/-- `j or d`. -/
def or (j d : Json) : Json := if j.truthy then j else d

@[simp] theorem or_obj_nil (fields : List (String × Json)) :
    (Json.obj fields).or (.obj []) = .obj fields := by
  cases fields <;> rfl

end Json

/-- `fields.get(key, default)`. -/
def dictGet (fields : List (String × Json)) (key : String) (default : Json) : Json :=
  (fields.lookup key).getD default

/-- `fields[key] = value`. A new key comes last. -/
def dictSet (key : String) (value : α) : List (String × α) → List (String × α)
  | [] => [(key, value)]
  | field :: fields =>
    if field.1 = key then (key, value) :: fields else field :: dictSet key value fields

/-- `{**base, **fields}`. -/
def dictUpdate (base fields : List (String × α)) : List (String × α) :=
  base.map (fun field => (field.1, (fields.lookup field.1).getD field.2)) ++
    fields.filter fun field => field.1 ∉ base.map Prod.fst

mutual

/-- What `json.loads` makes of the text of a value: of a key that comes twice, the last value
counts, in the place of the first. -/
def Json.read : Json → Json
  | .arr items => .arr (readItems items)
  | .obj fields => .obj (readFields fields [])
  | j => j

def Json.readItems : List Json → List Json
  | [] => []
  | j :: items => j.read :: readItems items

def Json.readFields : List (String × Json) → List (String × Json) → List (String × Json)
  | [], acc => acc
  | (key, j) :: fields, acc => readFields fields (dictSet key j.read acc)

end

mutual

/-- No dictionary in the value names a key twice. -/
def Json.Distinct : Json → Prop
  | .arr items => DistinctItems items
  | .obj fields => (fields.map Prod.fst).Nodup ∧ DistinctFields fields
  | _ => True

def Json.DistinctItems : List Json → Prop
  | [] => True
  | j :: items => j.Distinct ∧ DistinctItems items

def Json.DistinctFields : List (String × Json) → Prop
  | [] => True
  | (_, j) :: fields => j.Distinct ∧ DistinctFields fields

end

theorem dictSet_keys (key : String) (value : α) (fields : List (String × α)) :
    (dictSet key value fields).map Prod.fst = if key ∈ fields.map Prod.fst then
      fields.map Prod.fst else fields.map Prod.fst ++ [key] := by
  induction fields with
  | nil => rfl
  | cons field fields ih =>
    rw [dictSet]
    by_cases h : field.1 = key
    · rw [if_pos h, if_pos (h ▸ List.mem_cons_self ..), List.map_cons, List.map_cons, h]
    · have hk : key ∈ (field :: fields).map Prod.fst ↔ key ∈ fields.map Prod.fst := by
        rw [List.map_cons, List.mem_cons, or_iff_right (Ne.symm h)]
      rw [if_neg h, if_congr hk rfl rfl, List.map_cons, ih, List.map_cons]
      split <;> rfl

theorem dictSet_nodup {key : String} {value : α} {fields : List (String × α)}
    (h : (fields.map Prod.fst).Nodup) : ((dictSet key value fields).map Prod.fst).Nodup := by
  rw [dictSet_keys]
  split
  · exact h
  · rename_i hk
    rw [← List.concat_eq_append]
    exact h.concat hk

theorem dictSet_of_not_mem {key : String} {value : α} {fields : List (String × α)}
    (h : key ∉ fields.map Prod.fst) : dictSet key value fields = fields ++ [(key, value)] := by
  induction fields with
  | nil => rfl
  | cons field fields ih =>
    rw [List.map_cons, List.mem_cons, not_or] at h
    rw [dictSet, if_neg (Ne.symm h.1), ih h.2, List.cons_append]

theorem lookup_cons_self (key : String) (value : α) (fields : List (String × α)) :
    ((key, value) :: fields).lookup key = some value := by
  rw [List.lookup_cons, beq_self_eq_true]

theorem lookup_cons_of_ne {key key' : String} (h : key' ≠ key) (value : α)
    (fields : List (String × α)) :
    ((key, value) :: fields).lookup key' = fields.lookup key' := by
  rw [List.lookup_cons, beq_eq_false_iff_ne.2 h]

theorem lookup_dictSet (key key' : String) (value : α) (fields : List (String × α)) :
    (dictSet key value fields).lookup key' =
      if key' = key then some value else fields.lookup key' := by
  induction fields with
  | nil =>
    rw [dictSet]
    by_cases h : key' = key
    · rw [if_pos h, h, lookup_cons_self]
    · rw [if_neg h, lookup_cons_of_ne h]
  | cons field fields ih =>
    obtain ⟨k, x⟩ := field
    rw [dictSet]
    by_cases hk : k = key
    · rw [if_pos hk, hk]
      by_cases h : key' = key
      · rw [if_pos h, h, lookup_cons_self]
      · rw [if_neg h, lookup_cons_of_ne h, lookup_cons_of_ne h]
    · rw [if_neg hk]
      by_cases h : key' = k
      · rw [h, lookup_cons_self, lookup_cons_self, if_neg hk]
      · rw [lookup_cons_of_ne h, lookup_cons_of_ne h, ih]

theorem mem_of_lookup {key : String} {value : α} {fields : List (String × α)}
    (h : fields.lookup key = some value) : (key, value) ∈ fields := by
  obtain ⟨before, after, rfl, -⟩ := List.lookup_eq_some_iff.1 h
  exact List.mem_append_right _ List.mem_cons_self

theorem lookup_of_mem {key : String} {value : α} {fields : List (String × α)}
    (hn : (fields.map Prod.fst).Nodup) (h : (key, value) ∈ fields) :
    fields.lookup key = some value := by
  induction fields with
  | nil => cases h
  | cons field fields ih =>
    obtain ⟨key', value'⟩ := field
    obtain ⟨hk, hn⟩ := List.nodup_cons.1 hn
    rcases List.mem_cons.1 h with he | hm
    · cases he
      exact lookup_cons_self ..
    · have hne : key ≠ key' := by
        rintro rfl
        exact hk (List.mem_map.2 ⟨_, hm, rfl⟩)
      rw [lookup_cons_of_ne hne, ih hn hm]

theorem lookup_filter {key : String} {p : String × α → Bool} {fields : List (String × α)}
    (h : ∀ value, p (key, value) = true) : (fields.filter p).lookup key = fields.lookup key := by
  induction fields with
  | nil => rfl
  | cons field fields ih =>
    obtain ⟨k, x⟩ := field
    by_cases hk : key = k
    · subst hk
      rw [List.filter_cons_of_pos (h x), lookup_cons_self, lookup_cons_self]
    · cases hp : p (k, x) with
      | true => rw [List.filter_cons_of_pos hp, lookup_cons_of_ne hk, lookup_cons_of_ne hk, ih]
      | false =>
        rw [List.filter_cons_of_neg (Bool.eq_false_iff.1 hp), lookup_cons_of_ne hk, ih]

theorem lookup_getD (key : String) (base fields : List (String × α)) :
    (base.map fun field => (field.1, (fields.lookup field.1).getD field.2)).lookup key =
      (base.lookup key).map ((fields.lookup key).getD ·) := by
  induction base with
  | nil => rfl
  | cons field base ih =>
    obtain ⟨k, x⟩ := field
    by_cases h : key = k
    · subst h
      rw [List.map_cons, lookup_cons_self, lookup_cons_self, Option.map_some]
    · rw [List.map_cons, lookup_cons_of_ne h, lookup_cons_of_ne h, ih]

theorem lookup_dictUpdate (key : String) (base fields : List (String × α)) :
    (dictUpdate base fields).lookup key = (fields.lookup key).or (base.lookup key) := by
  rw [dictUpdate, List.lookup_append, lookup_getD]
  cases hbase : base.lookup key with
  | some x => cases fields.lookup key <;> rfl
  | none =>
    have hkey : key ∉ base.map Prod.fst := by
      intro hm
      obtain ⟨field, hf, rfl⟩ := List.mem_map.1 hm
      exact bne_iff_ne.1 (List.lookup_eq_none_iff.1 hbase field hf) rfl
    rw [lookup_filter fun value => decide_eq_true hkey, Option.map_none, Option.or_none,
      Option.none_or]

namespace Json

theorem distinctFields_dictSet {key : String} {j : Json} {fields : List (String × Json)}
    (hj : j.Distinct) (h : DistinctFields fields) : DistinctFields (dictSet key j fields) := by
  induction fields with
  | nil => exact ⟨hj, trivial⟩
  | cons field fields ih =>
    rw [dictSet]
    split
    · exact ⟨hj, h.2⟩
    · exact ⟨h.1, ih h.2⟩

mutual

/-- A text that names no key twice is read as it stands. -/
theorem read_of_distinct : ∀ j : Json, j.Distinct → j.read = j
  | .arr items, h => by rw [read, readItems_of_distinct items h]
  | .obj fields, h => by
    rw [read, readFields_of_distinct fields [] h.1 (fun _ hk => by cases hk) h.2, List.nil_append]
  | .null, _ | .bool _, _ | .int _, _ | .float _, _ | .str _, _ => rfl

theorem readItems_of_distinct : ∀ items, DistinctItems items → readItems items = items
  | [], _ => rfl
  | j :: items, h => by rw [readItems, read_of_distinct j h.1, readItems_of_distinct items h.2]

theorem readFields_of_distinct : ∀ fields acc, (fields.map Prod.fst).Nodup →
    (∀ k ∈ acc.map Prod.fst, k ∉ fields.map Prod.fst) → DistinctFields fields →
    readFields fields acc = acc ++ fields
  | [], acc, _, _, _ => by rw [readFields, List.append_nil]
  | (key, j) :: fields, acc, hn, hd, h => by
    obtain ⟨hk, hn⟩ := List.nodup_cons.1 hn
    have hacc : key ∉ acc.map Prod.fst := fun hm => hd key hm (List.mem_cons_self ..)
    rw [readFields, read_of_distinct j h.1, dictSet_of_not_mem hacc,
      readFields_of_distinct fields _ hn ?_ h.2, List.append_assoc]
    · rfl
    · intro k hm
      rw [List.map_append, List.mem_append] at hm
      rcases hm with hm | hm
      · exact fun hf => hd k hm (List.mem_cons_of_mem _ hf)
      · rw [List.mem_singleton.1 hm]
        exact hk

end

mutual

theorem distinct_read : ∀ j : Json, j.read.Distinct
  | .arr items => by
    rw [read]
    exact distinct_readItems items
  | .obj fields => by
    rw [read]
    exact distinct_readFields fields [] List.nodup_nil trivial
  | .null | .bool _ | .int _ | .float _ | .str _ => trivial

theorem distinct_readItems : ∀ items, DistinctItems (readItems items)
  | [] => trivial
  | j :: items => ⟨distinct_read j, distinct_readItems items⟩

theorem distinct_readFields : ∀ fields acc, (acc.map Prod.fst).Nodup → DistinctFields acc →
    ((readFields fields acc).map Prod.fst).Nodup ∧ DistinctFields (readFields fields acc)
  | [], _, hn, h => ⟨hn, h⟩
  | (_, j) :: fields, _, hn, h =>
    distinct_readFields fields _ (dictSet_nodup hn) (distinctFields_dictSet (distinct_read j) h)

end

theorem read_eq_iff (j : Json) : j.read = j ↔ j.Distinct :=
  ⟨fun h => h ▸ distinct_read j, read_of_distinct j⟩

theorem distinct_or_iff {j : Json} {fields : List (String × Json)}
    (h : j.or (.obj []) = .obj fields) : j.Distinct ↔ (Json.obj fields).Distinct := by
  cases hj : j.truthy with
  | true =>
    rw [Json.or, if_pos hj] at h
    rw [h]
  | false =>
    rw [Json.or, if_neg (Bool.eq_false_iff.1 hj)] at h
    rw [← h]
    refine ⟨fun _ => ⟨List.nodup_nil, trivial⟩, fun _ => ?_⟩
    cases j with
    | arr items =>
      cases items with
      | nil => trivial
      | cons _ _ => cases hj
    | obj fields =>
      cases fields with
      | nil => exact ⟨List.nodup_nil, trivial⟩
      | cons _ _ => cases hj
    | _ => trivial

end Json

end Python
