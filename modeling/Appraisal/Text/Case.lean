import Appraisal.Text.Case.Table

/-! Lower case. Every character is replaced by its lower case form; two rules look further than a table of
    single characters:

    - the capital I with a dot above becomes an `i` followed by a combining dot;
    - the Greek capital sigma becomes the final sigma at the end of a word: a cased letter stands before
      it and none after it, where ignorable characters on either side do not count. -/

namespace Appraisal.Text.Case

/-- `c` is cased and counts as a neighbour. -/
def isCased (c : Char) : Bool := Span.member cased c

/-- `c` does not count as a neighbour. -/
def isIgnorable (c : Char) : Bool := Span.member ignorable c

/-- The lower case form of a single character by the table; `c` itself where the table has none. -/
def lowerChar (c : Char) : Char :=
  match shifts.find? (·.covers c.toNat) with
  | some s => Char.ofNat (c.toNat + s.shift).toNat
  | none => c

def capitalSigma : Char := 'Σ'
def smallSigma : Char := 'σ'
def finalSigma : Char := 'ς'

/-- The lower case of one character that stands after a cased letter (`after`) and before `rest`. -/
def lowerAt (after : Bool) (c : Char) (rest : List Char) : List Char :=
  if c = capitalSigma then
    if after && !(rest.dropWhile isIgnorable).head?.any isCased then [finalSigma] else [smallSigma]
  else if c = 'İ' then ['i', '\u0307']
  else [lowerChar c]

/-- Whether the next character stands after a cased letter, given whether `c` does. -/
def stepCased (after : Bool) (c : Char) : Bool := if isIgnorable c then after else isCased c

/-- Lower case of a text that continues after a cased letter (`after`) or not. -/
def lowerFrom : Bool → List Char → List Char
  | _, [] => []
  | after, c :: cs => lowerAt after c cs ++ lowerFrom (stepCased after c) cs

def lower (cs : List Char) : List Char := lowerFrom false cs

@[simp] theorem lower_nil : lower [] = [] := rfl

end Appraisal.Text.Case

namespace Appraisal

def lowerText (s : String) : String := String.ofList (Text.Case.lower s.toList)

end Appraisal
