import Appraisal.Submission.Position

/-! The tokens of the statement notation. -/

namespace Appraisal.Submission

inductive Mark where
  | colon
  | equal
  | semicolon
  | dot
  deriving DecidableEq, Repr

/-- The words that ask for a verdict. -/
inductive Query where
  | check
  | eval
  deriving DecidableEq, Repr

/-- What a token is, with its content: a string without its quotes and escapes, a symbol without its hash. -/
inductive Lexeme where
  | mark (m : Mark)
  | string (content : String)
  | symbol (name : String)
  | number (numeral : String)
  | word (name : String)
  | query (q : Query)
  deriving DecidableEq, Repr

/-- A lexeme and the place where it begins. -/
structure Token where
  lexeme : Lexeme
  position : Position
  deriving DecidableEq, Repr

/-- The tokens of a text and the place where the text ends. -/
structure TokenList where
  tokens : List Token
  stop : Position
  deriving DecidableEq, Repr

namespace Mark

def char : Mark → Char
  | colon => ':'
  | equal => '='
  | semicolon => ';'
  | dot => '.'

def ofChar? (c : Char) : Option Mark :=
  if c = ':' then some colon
  else if c = '=' then some equal
  else if c = ';' then some semicolon
  else if c = '.' then some dot
  else none

theorem ofChar?_char (m : Mark) : ofChar? m.char = some m := by cases m <;> rfl

theorem char_of_ofChar? {c : Char} {m : Mark} (h : ofChar? c = some m) : m.char = c := by
  simp only [ofChar?] at h
  split at h
  · cases h; simp_all [char]
  split at h
  · cases h; simp_all [char]
  split at h
  · cases h; simp_all [char]
  split at h
  · cases h; simp_all [char]
  · cases h

end Mark

/-- The word in capitals. -/
def Query.name : Query → String
  | .check => "CHECK"
  | .eval => "EVAL"

/-- The kinds of tokens, and the end of the text. -/
inductive Kind where
  | colon
  | equal
  | semicolon
  | dot
  | string
  | symbol
  | number
  | word
  | check
  | eval
  | finish
  deriving DecidableEq, Repr

namespace Kind

def name : Kind → String
  | colon => "COLON"
  | equal => "EQUAL"
  | semicolon => "SEMI"
  | dot => "DOT"
  | string => "STRING"
  | symbol => "SYMBOL"
  | number => "NUMBER"
  | word => "IDENT"
  | check => "KW_CHECK"
  | eval => "KW_EVAL"
  | finish => "EOF"

end Kind

namespace Lexeme

def kind : Lexeme → Kind
  | mark .colon => .colon
  | mark .equal => .equal
  | mark .semicolon => .semicolon
  | mark .dot => .dot
  | string _ => .string
  | symbol _ => .symbol
  | number _ => .number
  | word _ => .word
  | query .check => .check
  | query .eval => .eval

def content : Lexeme → String
  | mark m => m.char.toString
  | string s => s
  | symbol s => s
  | number s => s
  | word s => s
  | query q => q.name

end Lexeme

/-- The kind of the first token, or the end. -/
def headKind : List Token → Kind
  | [] => .finish
  | t :: _ => t.lexeme.kind

/-- The place of the first token, or the end of the text. -/
def headPosition (stop : Position) : List Token → Position
  | [] => stop
  | t :: _ => t.position

end Appraisal.Submission
