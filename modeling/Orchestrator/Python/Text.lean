import Orchestrator.Python.Value

namespace Python
set_option autoImplicit true

/-- An exception, by the classes that `except` clauses tell apart. -/
inductive ErrorClass where
  | valueError | typeError | overflowError | attributeError | otherError
  deriving DecidableEq

structure PyError where
  cls : ErrorClass
  msg : String
  deriving DecidableEq

/-- The code points for which `str.isspace` holds. -/
def isSpace (c : Char) : Bool :=
  (0x09 ≤ c.toNat && c.toNat ≤ 0x0d) || (0x1c ≤ c.toNat && c.toNat ≤ 0x20) || c.toNat = 0x85 ||
    c.toNat = 0xa0 || c.toNat = 0x1680 || (0x2000 ≤ c.toNat && c.toNat ≤ 0x200a) ||
    c.toNat = 0x2028 || c.toNat = 0x2029 || c.toNat = 0x202f || c.toNat = 0x205f ||
    c.toNat = 0x3000

def stripChars (space : Char → Bool) (cs : List Char) : List Char :=
  ((cs.dropWhile space).reverse.dropWhile space).reverse

/-- `s.strip()`. -/
def strip (s : String) : String := String.ofList (stripChars isSpace s.toList)

/-- The space that `int` passes over: the information separators do not count. -/
def isIntSpace (c : Char) : Bool := isSpace c && !(0x1c ≤ c.toNat && c.toNat ≤ 0x1f)

/-- The zeros of the decimal digits of Unicode. Each is followed by its one to nine. -/
def decimalZeros : List Nat := [
  0x30, 0x660, 0x6f0, 0x7c0, 0x966, 0x9e6, 0xa66, 0xae6, 0xb66, 0xbe6, 0xc66, 0xce6, 0xd66, 0xde6,
  0xe50, 0xed0, 0xf20, 0x1040, 0x1090, 0x17e0, 0x1810, 0x1946, 0x19d0, 0x1a80, 0x1a90, 0x1b50,
  0x1bb0, 0x1c40, 0x1c50, 0xa620, 0xa8d0, 0xa900, 0xa9d0, 0xa9f0, 0xaa50, 0xabf0, 0xff10, 0x104a0,
  0x10d30, 0x11066, 0x110f0, 0x11136, 0x111d0, 0x112f0, 0x11450, 0x114d0, 0x11650, 0x116c0, 0x11730,
  0x118e0, 0x11950, 0x11c50, 0x11d50, 0x11da0, 0x16a60, 0x16ac0, 0x16b50, 0x1d7ce, 0x1d7d8, 0x1d7e2,
  0x1d7ec, 0x1d7f6, 0x1e140, 0x1e2f0, 0x1e950, 0x1fbf0]

def decimalDigit (c : Char) : Option Nat :=
  (decimalZeros.find? fun z => z ≤ c.toNat && c.toNat < z + 10).map (c.toNat - ·)

/-- The digits of a number. Single underscores may stand between them. -/
def readDigits : List Char → Nat → Bool → Option Nat
  | [], n, afterDigit => if afterDigit then some n else none
  | c :: cs, n, afterDigit =>
    if c = '_' then
      if afterDigit then readDigits cs n false else none
    else match decimalDigit c with
      | some d => readDigits cs (10 * n + d) true
      | none => none

/-- The limit on the digits of an integer in a string. -/
def intMaxStrDigits : Nat := 4300

def readNat (cs : List Char) : Option Nat :=
  if (cs.filter (· ≠ '_')).length ≤ intMaxStrDigits then readDigits cs 0 false else none

/-- `int(s)`, where it does not raise. -/
def intOfString (s : String) : Option Int :=
  match stripChars isIntSpace s.toList with
  | '-' :: cs => (readNat cs).map fun n => -(n : Int)
  | '+' :: cs => (readNat cs).map Int.ofNat
  | cs => (readNat cs).map Int.ofNat

/-- `int(j)` of a value that is not `None`. -/
def toInt (repr : String → String) : Json → Except PyError Int
  | .bool b => .ok (if b then 1 else 0)
  | .int n => .ok n
  | .float (.finite x) => .ok (x.num.tdiv x.den)
  | .float .negZero => .ok 0
  | .float (.inf _) => .error ⟨.overflowError, "cannot convert float infinity to integer"⟩
  | .float .nan => .error ⟨.valueError, "cannot convert float NaN to integer"⟩
  | .str s => match intOfString s with
    | some n => .ok n
    | none => .error ⟨.valueError, "invalid literal for int() with base 10: " ++ repr s⟩
  | .null => .error ⟨.typeError, "int() argument must be a string, a bytes-like object " ++
      "or a real number, not 'NoneType'"⟩
  | .arr _ => .error ⟨.typeError, "int() argument must be a string, a bytes-like object " ++
      "or a real number, not 'list'"⟩
  | .obj _ => .error ⟨.typeError, "int() argument must be a string, a bytes-like object " ++
      "or a real number, not 'dict'"⟩

/-- `j in words`, for a set of strings. -/
def inWords (words : List String) : Json → Except PyError Bool
  | .str s => .ok (words.contains s)
  | .arr _ => .error ⟨.typeError, "unhashable type: 'list'"⟩
  | .obj _ => .error ⟨.typeError, "unhashable type: 'dict'"⟩
  | _ => .ok false

end Python
