import Appraisal.Submission.Program

/-! The line notation: one assignment `name : value` (or with `=`) per line. The first colon or equals sign of a
    line, which is not its first character, divides it; a line without one, or with nothing after it, is
    passed over. -/

namespace Appraisal.Submission.Lines

/-- The lines of a text, which end with a line feed or with a carriage return and a line feed. -/
def split : List Char → List (List Char)
  | [] => [[]]
  | '\r' :: '\n' :: cs => [] :: split cs
  | '\n' :: cs => [] :: split cs
  | c :: cs => match split cs with
    | [] => [[c]]
    | line :: lines => (c :: line) :: lines

def isSeparator (c : Char) : Bool := c = ':' || c = '='

/-- The value of a text without backticks: the number that it denotes, or itself in lower case. -/
def value (cs : List Char) : Except Numeral.Fault Value :=
  if Numeral.isNumeral cs then (Numeral.read cs).map .number
  else .ok (.text (String.ofList (Text.Case.lower cs)))

/-- The name and the value, as text, that a stripped line assigns. -/
def divide (line : List Char) : Option (List Char × List Char) :=
  let name := line.takeWhile (!isSeparator ·)
  match line.dropWhile (!isSeparator ·) with
  | _ :: rest => if name.isEmpty || rest.isEmpty then none else some (Text.strip name, Text.strip rest)
  | [] => none

def assign (v : Vocabulary) (fields : OrderedMap Value) (line : List Char) :
    Except Numeral.Fault (OrderedMap Value) :=
  match divide (Text.strip line) with
  | none => .ok fields
  | some (name, text) => do
    let x ← value (dropBackticks text)
    return fields.put (v.resolve (String.ofList name)) x

/-- The fields of a text in the line notation. -/
def fields (v : Vocabulary) (text : List Char) : Except Numeral.Fault (OrderedMap Value) :=
  (split text).foldlM (assign v) OrderedMap.empty

end Appraisal.Submission.Lines
