/-! Floating point numbers of 64 bits, exactly. A finite number is a whole number of the least positive one,
    2 ^ -1074, so that numbers are compared as integers and no rounding happens outside `round`. The sign is
    kept apart because there are two zeros. -/

namespace Appraisal

/-- A 64-bit floating point number: its magnitude counts steps of 2 ^ -1074. -/
inductive Binary64 where
  | finite (negative : Bool) (steps : Nat)
  | infinite (negative : Bool)
  | nan
  deriving DecidableEq, Repr, Inhabited

namespace Binary64

/-- The number of steps in one. -/
def one : Nat := Nat.pow 2 1074

/-- The step between neighbouring numbers of the size of `steps`: significands have 53 bits. -/
def spacing (steps : Nat) : Nat := if steps < Nat.pow 2 53 then 1 else Nat.pow 2 (Nat.log2 steps - 52)

/-- A quotient rounded to the nearest integer, a half to the even neighbour. -/
def roundHalfEven (num den : Nat) : Nat :=
  let q := num / den
  let r := num % den
  if 2 * r < den then q
  else if den < 2 * r then q + 1
  else if q % 2 = 0 then q else q + 1

/-- The nearest number to `num / den` steps; too large a magnitude is infinite. -/
def round (negative : Bool) (num den : Nat) : Binary64 :=
  let step := spacing (num / den)
  let steps := roundHalfEven num (den * step) * step
  if steps < Nat.pow 2 1024 * one then .finite negative steps else .infinite negative

/-- The nearest number to `digits * 10 ^ exponent`. -/
def ofDecimal (negative : Bool) (digits : Nat) : (exponent : Int) → Binary64
  | .ofNat e => round negative (digits * Nat.pow 10 e * one) 1
  | .negSucc e => round negative (digits * one) (Nat.pow 10 (e + 1))

/-- As `ofDecimal`, without computing powers for exponents that are sure to overflow or to vanish:
    from 10 ^ 310 on everything is infinite, and `10 ^ k` exceeds `2 ^ (3 * k)`. -/
def ofScientific (negative : Bool) (digits : Nat) (exponent : Int) : Binary64 :=
  if digits = 0 then .finite negative 0
  else if 310 ≤ exponent then .infinite negative
  else if 3 * exponent + Nat.log2 digits + 1100 < 0 then .finite negative 0
  else ofDecimal negative digits exponent

def signed (negative : Bool) (steps : Nat) : Int := if negative then -steps else steps

/-- The integer that the number is, if it is one. -/
def toInt? : Binary64 → Option Int
  | .finite negative steps => if steps % one = 0 then some (signed negative (steps / one)) else none
  | _ => none

end Binary64
end Appraisal
