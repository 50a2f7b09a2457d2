import Appraisal.Submission.Lines

/-! Reading a submission: the notation is chosen from the text alone, and the text is read in it. The statement notation
    is recognised by a semicolon, by a word CHECK or EVAL in any case, by a hash before a word character, or by a dot
    between words. Word characters are ASCII letters, digits and the underscore; only the ASCII ones count here. -/

namespace Appraisal.Submission

/-! ### The two notations -/

inductive Dialect where
  | statements
  | lines
  deriving DecidableEq, Repr

namespace Dialect

def name : Dialect → String
  | statements => "dsl"
  | lines => "legacy"

def isWord (c : Char) : Bool := c.isAlphanum || c = '_'

/-- A word character that may begin a name. -/
def isNameStart (c : Char) : Bool := c.isAlpha || c = '_'

/-- A query word stands somewhere with no word character before or after it. `joined` tells whether a word
    character stands before the text. -/
def hasQueryWord : (joined : Bool) → List Char → Bool
  | _, [] => false
  | joined, c :: cs =>
    !joined && (Scan.query? ((c :: cs).takeWhile isWord)).isSome || hasQueryWord (isWord c) cs

/-- A hash stands before a word character. -/
def hasSymbol : List Char → Bool
  | [] => false
  | c :: cs => c = '#' && cs.head?.any isWord || hasSymbol cs

/-- A dot stands between a run of word characters with a letter or underscore in it and a letter or underscore.
    `named` tells whether such a run ends before the text. -/
def hasDottedName : (named : Bool) → List Char → Bool
  | _, [] => false
  | named, c :: cs =>
    named && c = '.' && cs.head?.any isNameStart || hasDottedName (isWord c && (named || isNameStart c)) cs

def detect (text : List Char) : Dialect :=
  let cs := Text.strip text
  if cs.contains ';' || hasQueryWord false cs || hasSymbol cs || hasDottedName false cs then .statements else .lines

end Dialect

end Appraisal.Submission

/-! ### Reading -/

namespace Appraisal

/-- What a submission says: its fields under canonical names, and whether it asks for a verdict. -/
structure Submission where
  dialect : Submission.Dialect
  fields : OrderedMap Value
  seenQuery : Bool

namespace Submission

def ofProgram (v : Vocabulary) (text : List Char) : Except Fault Submission :=
  (Program.read text).map fun statements =>
    ⟨.statements, Program.fields v statements, Program.hasQuery statements⟩

def ofLines (v : Vocabulary) (text : List Char) : Except Fault Submission :=
  match Lines.fields v text with
  | .ok fields => .ok ⟨.lines, fields, false⟩
  | .error f => .error (.numeral f)

/-- Reads a text in the notation that it selects. -/
def read (v : Vocabulary) (text : List Char) : Except Fault Submission :=
  match Dialect.detect text with
  | .statements => ofProgram v text
  | .lines => ofLines v text

end Submission
end Appraisal
