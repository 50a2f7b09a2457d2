import Appraisal.Number.Basic
import Appraisal.Text.Class
import Appraisal.Text.Quoted

/-! Numerals: numbers as text. The plain form is `-`?digits(`.`digits)?, which is what the notations of submissions
    admit. Reading takes more: white space at the ends, a plus sign, digits of any script with underscores between
    them, and with a point also an exponent. With a point a numeral stands for a floating point number, without
    one for an integer, whose text may have at most `digitLimit` digits. -/

namespace Appraisal

/-! ### Outcomes of what can fail -/

namespace Outcome
variable {ε α β : Type}

theorem map_eq_ok_iff {f : α → β} {x : Except ε α} {b : β} : x.map f = .ok b ↔ ∃ a, x = .ok a ∧ f a = b := by
  cases x <;> simp [Except.map]

theorem bind_eq_ok_iff {x : Except ε α} {f : α → Except ε β} {b : β} :
    (x >>= f) = .ok b ↔ ∃ a, x = .ok a ∧ f a = .ok b := by
  cases x <;> simp [bind, Except.bind]

theorem toOption_eq_some_iff {x : Except ε α} {a : α} : x.toOption = some a ↔ x = .ok a := by
  cases x <;> simp [Except.toOption]

theorem map_eq_error_iff {f : α → β} {x : Except ε α} {e : ε} : x.map f = .error e ↔ x = .error e := by
  cases x <;> simp [Except.map]

theorem bind_eq_error_iff {x : Except ε α} {f : α → Except ε β} {e : ε} :
    (x >>= f) = .error e ↔ x = .error e ∨ ∃ a, x = .ok a ∧ f a = .error e := by
  cases x <;> simp [bind, Except.bind]

end Outcome

/-! ### Faults -/

/-- Integer text with more digits than `digitLimit`. -/
structure TooManyDigits where
  digits : Nat
  deriving DecidableEq, Repr

/-- The most digits that integer text may have, leading zeros included. -/
def digitLimit : Nat := 4300

def TooManyDigits.message (e : TooManyDigits) : String :=
  "Exceeds the limit (" ++ toString digitLimit ++ " digits) for integer string conversion: value has "
    ++ toString e.digits ++ " digits; use sys.set_int_max_str_digits() to increase the limit"

namespace Numeral

/-- Why a text does not stand for a number. -/
inductive Fault where
  | tooManyDigits (e : TooManyDigits)
  | notInteger (text : List Char)
  | notDecimal (text : List Char)
  deriving DecidableEq, Repr

/-- The most characters of a text, with its quotes, that a report about an integer shows. -/
def shownLimit : Nat := 200

def Fault.message : Fault → String
  | .tooManyDigits e => e.message
  | .notInteger text =>
    "invalid literal for int() with base 10: " ++ String.ofList ((Text.Quoted.quote text).take shownLimit)
  | .notDecimal text => "could not convert string to float: " ++ String.ofList (Text.Quoted.quote text)

/-! ### The plain form -/

/-- The text without a leading minus sign, and whether it had one. -/
def splitMinus : List Char → Bool × List Char
  | '-' :: cs => (true, cs)
  | cs => (false, cs)

/-- The text has the plain form of a numeral. -/
def isNumeral (cs : List Char) : Bool :=
  let body := (splitMinus cs).2
  let whole := body.takeWhile (· != '.')
  !whole.isEmpty && whole.all Char.isDigit && match body.dropWhile (· != '.') with
    | [] => true
    | _ :: fraction => !fraction.isEmpty && fraction.all Char.isDigit

/-! ### Reading -/

/-- White space that may stand around a numeral: all but the information separators. -/
def isMargin (c : Char) : Bool := Text.isBlank c && !(0x1C ≤ c.toNat && c.toNat ≤ 0x1F)

/-- The text without the white space around it. -/
def trim (cs : List Char) : List Char := ((cs.dropWhile isMargin).reverse.dropWhile isMargin).reverse

/-- The text without a leading sign, and whether that was a minus. -/
def splitSign : List Char → Bool × List Char
  | '-' :: cs => (true, cs)
  | '+' :: cs => (false, cs)
  | cs => (false, cs)

/-- The number that plain digits stand for. -/
def natural (ds : List Char) : Nat := Nat.ofDigitChars 10 ds 0

def inRun (c : Char) : Bool := c = '_' || (Text.plainDigit? c).isSome

/-- An integer. Its digits are counted before the text after them is looked at. -/
def readInteger (cs : List Char) : Except Fault Int :=
  let (negative, body) := splitSign (trim cs)
  match Text.plainDigits? (body.takeWhile inRun) with
  | none => .error (.notInteger cs)
  | some ds =>
    if digitLimit < ds.length then .error (.tooManyDigits ⟨ds.length⟩)
    else if (body.dropWhile inRun).isEmpty then .ok (if negative then -natural ds else natural ds)
    else .error (.notInteger cs)

/-- The digits of a part that may be empty. -/
def partDigits? (cs : List Char) : Option (List Char) := if cs.isEmpty then some [] else Text.plainDigits? cs

/-- The digits before and after the point of a text; there is at least one of them. -/
def mantissa? (cs : List Char) : Option (List Char × List Char) := do
  let whole ← partDigits? (cs.takeWhile (· != '.'))
  let fraction ← partDigits? ((cs.dropWhile (· != '.')).drop 1)
  if whole.isEmpty && fraction.isEmpty then none else return (whole, fraction)

/-- The power of ten that an exponent gives, where it begins with its letter; without an exponent it is zero. -/
def power? : List Char → Option Int
  | [] => some 0
  | _ :: cs =>
    let (negative, body) := splitSign cs
    (Text.plainDigits? body).map fun ds => if negative then -natural ds else natural ds

def isExponentMark (c : Char) : Bool := c = 'e' || c = 'E'

/-- The floating point number of a sign, a mantissa and an exponent. -/
def decimal? (cs : List Char) : Option Binary64 := do
  let (negative, body) := splitSign cs
  let (whole, fraction) ← mantissa? (body.takeWhile (!isExponentMark ·))
  let power ← power? (body.dropWhile (!isExponentMark ·))
  return .ofScientific negative (natural (whole ++ fraction)) (power - fraction.length)

def read (cs : List Char) : Except Fault Number :=
  if cs.contains '.' then
    match decimal? (trim cs) with
    | some x => .ok (.real x)
    | none => .error (.notDecimal cs)
  else (readInteger cs).map .int

end Numeral

end Appraisal
