import Appraisal.Ruleset.Basic
import Appraisal.Submission.Statement
import Appraisal.Value.Basic

/-! Programs: submissions in the statement notation. Their fields are the assignments from left to right under
    canonical names; texts are kept in normal form, that is in lower case and without backticks. -/

namespace Appraisal.Submission

def dropBackticks (cs : List Char) : List Char := cs.filter (· != '\x60')

/-- Lower case, then without backticks. -/
def normalize (s : String) : String := String.ofList (dropBackticks (Text.Case.lower s.toList))

/-- The value that a literal gives a field. -/
def Literal.value : Literal → Value
  | .number n => .number n
  | .text s => .text (normalize s)

namespace Program

/-- The key under which an assignment to a path is stored. -/
def fieldName (v : Vocabulary) (path : List String) : String := v.resolve (".".intercalate path)

def assign (v : Vocabulary) (fields : OrderedMap Value) : Statement → OrderedMap Value
  | .assign path value => fields.put (fieldName v path) value.value
  | .query _ => fields

def fields (v : Vocabulary) (statements : List Statement) : OrderedMap Value :=
  statements.foldl (assign v) OrderedMap.empty

def hasQuery (statements : List Statement) : Bool := statements.any fun
  | .query _ => true
  | .assign _ _ => false

def read (text : List Char) : Except Fault (List Statement) :=
  match tokens text with
  | .error f => .error (.malformed (.about text (.scan f.fault) f.position))
  | .ok ts =>
    let reading := Statement.readAll ts.tokens
    match reading.obstacle with
    | none => .ok reading.statements
    | some (.grammar f rest) => .error (.malformed (.about text (.grammar f) (headPosition ts.stop rest)))
    | some (.numeral f) => .error (.numeral f)

end Program
end Appraisal.Submission
