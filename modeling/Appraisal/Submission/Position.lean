/-! Positions in a text. A line feed begins a new line; every other character takes one column. Columns and lines
    count from one, offsets from zero. -/

namespace Appraisal.Submission

/-- A place between the characters of a text. -/
structure Position where
  line : Nat
  column : Nat
  offset : Nat
  deriving DecidableEq, Repr, Inhabited

namespace Position

def start : Position := ⟨1, 1, 0⟩

/-- The place after `c`, which stands at `p`. -/
def next (p : Position) (c : Char) : Position :=
  if c = '\n' then ⟨p.line + 1, 1, p.offset + 1⟩ else ⟨p.line, p.column + 1, p.offset + 1⟩

/-- The place after `cs`, which stand at `p`. -/
def after (p : Position) (cs : List Char) : Position := cs.foldl next p

@[simp] theorem after_nil (p : Position) : p.after [] = p := rfl

@[simp] theorem after_cons (p : Position) (c : Char) (cs : List Char) : p.after (c :: cs) = (p.next c).after cs := rfl

@[simp] theorem after_append (p : Position) (a b : List Char) : p.after (a ++ b) = (p.after a).after b :=
  List.foldl_append

@[simp] theorem offset_after (p : Position) (cs : List Char) : (p.after cs).offset = p.offset + cs.length := by
  induction cs generalizing p with
  | nil => rfl
  | cons c cs ih =>
    rw [after_cons, ih]
    simp only [next, List.length_cons]
    split <;> simp <;> omega

end Position

/-- Characters shown on either side of a place, unless said otherwise. -/
def excerptRadius : Nat := 20

/-- The text around an offset, and under it a line with a caret. A place before the beginning of the text counts from
    its end where the shown part ends, and from its beginning elsewhere. -/
def excerpt (source : List Char) (offset : Int) (radius : Int := excerptRadius) : List Char :=
  let first := (offset - radius).toNat
  let last := min (source.length : Int) (offset + radius)
  let last := (if last < 0 then source.length + last else last).toNat
  "...".toList ++ (source.drop first).take (last - first) ++
    '\n' :: List.replicate (3 + min radius offset).toNat ' ' ++ ['^']

inductive ExcerptFault where
  /-- The caret is so far away that its column does not fit in 64 bits. -/
  | tooFar
  /-- The line with the caret is too long to be held. -/
  | tooLong
  deriving DecidableEq, Repr

/-- The message of a fault, where it has one. -/
def ExcerptFault.message? : ExcerptFault → Option String
  | tooFar => some "cannot fit 'int' into an index-sized integer"
  | tooLong => none

/-- The most blanks in front of a caret. -/
def blankLimit : Nat := Nat.pow 2 30

/-- As `excerpt`, for offsets and radii of any size. -/
def boundedExcerpt (source : List Char) (offset radius : Int) : Except ExcerptFault (List Char) :=
  let blanks := 3 + min radius offset
  let bound : Nat := Nat.pow 2 63
  if blanks < -bound ∨ bound ≤ blanks then .error .tooFar
  else if blankLimit < blanks then .error .tooLong
  else .ok (excerpt source offset radius)

end Appraisal.Submission
