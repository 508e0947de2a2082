import Orchestrator.Python.Schema

namespace Python
set_option autoImplicit true

/-- The behaviour of pydantic's conversion to integers that agrees with `int`. -/
structure Pydantic.Lawful (P : Pydantic) : Prop where
  int_int (n : Int) : P.int (.int n) = .ok n
  int_bool (b : Bool) : P.int (.bool b) = .ok (if b then 1 else 0)
  int_finite (x : Rat) (n : Int) : P.int (.float (.finite x)) = .ok n → x = n
  int_negZero (n : Int) : P.int (.float .negZero) = .ok n → n = 0
  int_inf (negative : Bool) (n : Int) : P.int (.float (.inf negative)) ≠ .ok n
  int_nan (n : Int) : P.int (.float .nan) ≠ .ok n
  int_str (s : String) (n m : Int) : P.int (.str s) = .ok n → intOfString s = some m → n = m
  int_null (n : Int) : P.int .null ≠ .ok n
  int_arr (items : List Json) (n : Int) : P.int (.arr items) ≠ .ok n
  int_obj (items : List (String × Json)) (n : Int) : P.int (.obj items) ≠ .ok n

/-- A number in a string may end in a point and zeros. -/
def laxIntOfString (s : String) : Option Int :=
  match intOfString s with
  | some n => some n
  | none =>
    let cs := stripChars isSpace s.toList
    match cs.dropWhile (· ≠ '.') with
    | '.' :: '0' :: zeros => match zeros.all (· = '0'), cs.takeWhile (· ≠ '.') with
      | true, '-' :: digits => (readNat digits).map fun n => -(n : Int)
      | true, '+' :: digits => (readNat digits).map Int.ofNat
      | true, digits => (readNat digits).map Int.ofNat
      | false, _ => none
    | _ => none

/-- Floats are converted by way of 64 bits. -/
def laxInt : Json → Except String Int
  | .bool b => .ok (if b then 1 else 0)
  | .int n => .ok n
  | .float (.finite x) =>
    if x.den ≠ 1 then
      .error "Input should be a valid integer, got a number with a fractional part"
    else if x.num.natAbs < 9223372036854775808 then
      .ok x.num
    else
      .error "Unable to parse input string as an integer, exceeded maximum size"
  | .float .negZero => .ok 0
  | .float _ => .error "Input should be a finite number"
  | .str s => match laxIntOfString s with
    | some n => .ok n
    | none => .error "Input should be a valid integer, unable to parse string as an integer"
  | _ => .error "Input should be a valid integer"

def trueWords : List String := ["1", "on", "t", "true", "y", "yes"]

def falseWords : List String := ["0", "off", "f", "false", "n", "no"]

def laxBoolOfString (s : String) : Option Bool :=
  let cs := s.toList.map Char.toLower
  if cs ∈ trueWords.map String.toList then some true
  else if cs ∈ falseWords.map String.toList then some false
  else none

def laxBool : Json → Except String Bool
  | .bool b => .ok b
  | .int 0 => .ok false
  | .int 1 => .ok true
  | .float .negZero => .ok false
  | .float (.finite x) =>
    if x = 0 then .ok false else if x = 1 then .ok true
    else .error "Input should be a valid boolean, unable to interpret input"
  | .str s => match laxBoolOfString s with
    | some b => .ok b
    | none => .error "Input should be a valid boolean, unable to interpret input"
  | .int _ => .error "Input should be a valid boolean, unable to interpret input"
  | _ => .error "Input should be a valid boolean"

/-- The lax mode of pydantic, for strings of ASCII characters. -/
def laxPydantic : Pydantic where
  int := laxInt
  bool := laxBool
  repr s := "'" ++ s ++ "'"

theorem laxPydantic_lawful : laxPydantic.Lawful where
  int_int _ := rfl
  int_bool _ := rfl
  int_finite x n h := by
    change laxInt (.float (.finite x)) = .ok n at h
    unfold laxInt at h
    dsimp only at h
    split at h
    · cases h
    · rename_i hden
      split at h
      · obtain rfl := Except.ok.inj h
        exact Rat.ext rfl (not_not.1 hden)
      · cases h
  int_negZero n h := (Except.ok.inj h).symm
  int_inf _ _ h := by cases h
  int_nan _ h := by cases h
  int_str s n m h hm := by
    change laxInt (.str s) = .ok n at h
    simp only [laxInt, laxIntOfString, hm, Except.ok.injEq] at h
    exact h.symm
  int_null _ h := by cases h
  int_arr _ _ h := by cases h
  int_obj _ _ h := by cases h

/-- On the values that `int` reads, where pydantic converts at all, they agree. -/
theorem Pydantic.Lawful.toInt_eq {P : Pydantic} (hP : P.Lawful) {v : Json} {n : Int}
    (h : P.int v = .ok n) : toInt P.repr v = .ok n ∨ ∃ s, v = .str s ∧ intOfString s = none := by
  cases v with
  | null => exact absurd h (hP.int_null n)
  | bool b =>
    obtain rfl := Except.ok.inj ((hP.int_bool b).symm.trans h)
    exact .inl rfl
  | int m =>
    obtain rfl := Except.ok.inj ((hP.int_int m).symm.trans h)
    exact .inl rfl
  | arr items => exact absurd h (hP.int_arr items n)
  | obj items => exact absurd h (hP.int_obj items n)
  | str s =>
    cases hs : intOfString s with
    | none => exact .inr ⟨s, rfl, hs⟩
    | some m =>
      left
      rw [toInt, hs, hP.int_str s n m h hs]
  | float x =>
    left
    cases x with
    | finite x =>
      obtain rfl := hP.int_finite x n h
      simp [toInt]
    | negZero =>
      obtain rfl := hP.int_negZero n h
      rfl
    | inf negative => exact absurd h (hP.int_inf negative n)
    | nan => exact absurd h (hP.int_nan n)

end Python
