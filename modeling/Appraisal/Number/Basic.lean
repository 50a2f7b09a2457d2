import Appraisal.Number.Shortest

/-! Numbers. A number is an integer of any size or a floating point number; integers and floating point numbers are
    compared exactly. -/

namespace Appraisal

inductive Number where
  | int (n : Int)
  | real (x : Binary64)
  deriving DecidableEq, Repr, Inhabited

namespace Number

/-- A place on the number line, in steps of 2 ^ -1074, with both ends. -/
inductive Place where
  | bottom
  | steps (n : Int)
  | top
  deriving DecidableEq, Repr

def Place.compare : Place → Place → Ordering
  | .bottom, .bottom => .eq
  | .bottom, _ => .lt
  | _, .bottom => .gt
  | .top, .top => .eq
  | .top, _ => .gt
  | _, .top => .lt
  | .steps a, .steps b => Ord.compare a b

/-- The place of a number; `nan` has none. -/
def place? : Number → Option Place
  | .int n => some (.steps (n * Binary64.one))
  | .real (.finite negative steps) => some (.steps (Binary64.signed negative steps))
  | .real (.infinite negative) => some (if negative then .bottom else .top)
  | .real .nan => none

/-- The order of two numbers; there is none with `nan`. -/
def compare? (a b : Number) : Option Ordering := do
  return (← a.place?).compare (← b.place?)

def intText (n : Int) : List Char :=
  if n < 0 then '-' :: Nat.toDigits 10 n.natAbs else Nat.toDigits 10 n.natAbs

def text : Number → List Char
  | .int n => intText n
  | .real x => x.text

def isZero : Number → Bool
  | .int n => n == 0
  | .real (.finite _ steps) => steps == 0
  | .real _ => false

end Number

end Appraisal
