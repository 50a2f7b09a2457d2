import Appraisal.Number.Numeral
import Appraisal.Submission.Token.Scan

/-! What can be wrong with a submission. -/

namespace Appraisal.Submission

/-- A token that does not fit. -/
inductive GrammarFault where
  /-- Another kind of token is needed here. -/
  | expected (wanted found : Kind)
  | expectedSeparator
  | expectedValue
  /-- No statement begins so. -/
  | unexpected (found : Kind)
  deriving DecidableEq, Repr

namespace GrammarFault

def message : GrammarFault → String
  | expected wanted found => "expected " ++ wanted.name ++ " but got " ++ found.name
  | expectedSeparator => "expected ':' or '='"
  | expectedValue => "expected value"
  | unexpected found => "unexpected token " ++ found.name

/-- The token that does not fit was already taken when the fault was found. -/
def taken : GrammarFault → Bool
  | expected _ _ | expectedSeparator => true
  | expectedValue | unexpected _ => false

end GrammarFault

inductive Cause where
  | scan (f : ScanFault)
  | grammar (f : GrammarFault)
  deriving DecidableEq, Repr

namespace Cause

def message : Cause → String
  | scan f => f.message
  | grammar f => f.message

/-- The short name of a cause in answers. -/
def code : Cause → String
  | scan _ => "lex_error"
  | grammar _ => "parse_error"

end Cause

/-- A report about a text that is not in the statement notation: the cause, the place, and an excerpt of the
    text around it if the text is known. -/
structure Report where
  cause : Cause
  position : Position
  excerpt : Option String
  deriving DecidableEq, Repr

namespace Report

def message (r : Report) : String := r.cause.message

/-- The report as it is shown to the submitter. -/
def text (r : Report) : String :=
  let line := "SSE-Lang parse error: " ++ r.message ++ " at " ++ toString r.position.line ++ ":" ++
    toString r.position.column
  match r.excerpt with
  | some shown => if shown.isEmpty then line else line ++ "\n" ++ shown
  | none => line

def about (source : List Char) (cause : Cause) (position : Position) : Report :=
  ⟨cause, position, some (String.ofList (Submission.excerpt source position.offset))⟩

end Report

inductive Fault where
  | malformed (r : Report)
  | numeral (f : Numeral.Fault)
  deriving DecidableEq, Repr

end Appraisal.Submission
