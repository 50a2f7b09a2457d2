import Appraisal.Number.Binary64

/-! The decimal text of a floating point number: the fewest digits that read back as the same number, and
    of those the nearest. Digits are sought on the decimal grids of 1, 2, ... 17 digits; on each grid only the
    two neighbours of the number can lie in the interval of reals that round to it. -/

namespace Appraisal.Binary64

/-- A decimal number `digits * 10 ^ exponent`. -/
structure Decimal where
  digits : Nat
  exponent : Int
  deriving DecidableEq, Repr

namespace Decimal

/-- The decimal times `2 * one`, and the number of steps times `2`, over a common denominator: the pair
    `(decimal, factor)` such that `decimal / factor` is twice the decimal in steps. -/
def doubled (d : Decimal) : Nat × Nat :=
  match d.exponent with
  | .ofNat e => (2 * one * d.digits * Nat.pow 10 e, 1)
  | .negSucc e => (2 * one * d.digits, Nat.pow 10 (e + 1))

/-- Without zeros at the end of the digits. -/
def trim (d : Decimal) : Decimal :=
  let ds := (Nat.toDigits 10 d.digits).reverse
  let zeros := (ds.takeWhile (· == '0')).length
  ⟨Nat.ofDigitChars 10 (ds.drop zeros).reverse 0, d.exponent + zeros⟩

end Decimal

/-- The gap below `steps`: half a step at a power of two, where the numbers below are closer. -/
def spacingBelow (steps : Nat) : Nat :=
  let step := spacing steps
  if 1 < step ∧ steps = Nat.pow 2 52 * step then step / 2 else step

/-- The decimal lies in the interval of reals that round to `steps`; the ends belong to it for an even
    significand. -/
def roundsTo (steps : Nat) (d : Decimal) : Bool :=
  let (decimal, factor) := d.doubled
  let low := (2 * steps - spacingBelow steps) * factor
  let high := (2 * steps + spacing steps) * factor
  if steps / spacing steps % 2 = 0 then low ≤ decimal && decimal ≤ high else low < decimal && decimal < high

/-- The distance between the decimal and `steps`, in units that depend on the exponent only. -/
def distance (steps : Nat) (d : Decimal) : Nat :=
  let (decimal, factor) := d.doubled
  (decimal - 2 * steps * factor) + (2 * steps * factor - decimal)

/-- The number `steps` is below `10 ^ k`. -/
def below (steps : Nat) : (k : Int) → Bool
  | .ofNat k => steps < Nat.pow 10 k * one
  | .negSucc k => steps * Nat.pow 10 (k + 1) < one

/-- The least `k` with the number below `10 ^ k`, sought from an estimate by the binary logarithm. -/
def magnitude (steps : Nat) : Int :=
  let estimate := ((Nat.log2 steps : Int) - 1074) * 30103 / 100000
  ((List.range 4).map (estimate - 1 + Int.ofNat ·)).find? (below steps) |>.getD (estimate + 3)

/-- The neighbour of the number below it on the grid of multiples of `10 ^ exponent`. -/
def floorOn (steps : Nat) : (exponent : Int) → Decimal
  | .ofNat e => ⟨steps / (Nat.pow 10 e * one), .ofNat e⟩
  | .negSucc e => ⟨steps * Nat.pow 10 (e + 1) / one, .negSucc e⟩

/-- The nearer of the two neighbours on a grid that round to the number; at equal distance the even one. -/
def nearestOn (steps : Nat) (exponent : Int) : Option Decimal :=
  let lower := floorOn steps exponent
  let upper := { lower with digits := lower.digits + 1 }
  match roundsTo steps lower, roundsTo steps upper with
  | false, false => none
  | true, false => some lower
  | false, true => some upper
  | true, true =>
    let a := distance steps lower
    let b := distance steps upper
    if a < b then some lower else if b < a then some upper
    else if lower.digits % 2 = 0 then some lower else some upper

/-- All digits of the number: every step is a multiple of `10 ^ -1074`. -/
def exact (steps : Nat) : Decimal := floorOn steps (-1074)

/-- The shortest decimal that reads back as `steps`, without zeros at the end. -/
def shortest (steps : Nat) : Decimal :=
  let size := magnitude steps
  let exponents := (List.range 17).map fun n => size - 1 - Int.ofNat n
  ((exponents.findSome? (nearestOn steps)).getD (exact steps)).trim

/-- Numbers from 10 ^ -4 up to 10 ^ 16 are written by position, others with an exponent. -/
def positionalFrom : Int := -4
def positionalBelow : Int := 16

/-- The digits with a point after the first `point` of them, and zeros where the point lies outside them. There
    is at least one digit on each side. -/
def positional (ds : List Char) (point : Int) : List Char :=
  if point ≤ 0 then '0' :: '.' :: List.replicate (-point).toNat '0' ++ ds
  else
    let whole := ds.take point.toNat
    let fraction := ds.drop point.toNat
    whole ++ List.replicate (point.toNat - ds.length) '0' ++ '.' :: (if fraction.isEmpty then ['0'] else fraction)

/-- The digits with a point after the first, and an exponent with its sign and at least two digits. -/
def scientific (ds : List Char) (exponent : Int) : List Char :=
  let size := Nat.toDigits 10 exponent.natAbs
  let mantissa := match ds with
    | d :: e :: rest => d :: '.' :: e :: rest
    | ds => ds
  mantissa ++ 'e' :: (if exponent < 0 then '-' else '+') :: (if size.length < 2 then '0' :: size else size)

def magnitudeText (steps : Nat) : List Char :=
  if steps = 0 then ['0', '.', '0']
  else
    let d := shortest steps
    let ds := Nat.toDigits 10 d.digits
    let exponent := d.exponent + ds.length - 1
    if positionalFrom ≤ exponent ∧ exponent < positionalBelow then positional ds (exponent + 1)
    else scientific ds exponent

def text : Binary64 → List Char
  | .finite negative steps => if negative then '-' :: magnitudeText steps else magnitudeText steps
  | .infinite negative => if negative then ['-', 'i', 'n', 'f'] else ['i', 'n', 'f']
  | .nan => ['n', 'a', 'n']

end Appraisal.Binary64
