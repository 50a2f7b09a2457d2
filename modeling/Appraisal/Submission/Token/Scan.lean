import Appraisal.Submission.Token

/-! Scanning a text into tokens. A step looks at the head of the text and takes a piece of layout, a lexeme, or
    finds a fault; every piece takes at least one character, so scanning ends. Main facts: `step_taken` (what a
    step takes and what it leaves make up the text) and `length_lt_of_splits` (so it leaves less). -/

namespace Appraisal.Submission

inductive ScanFault where
  | unexpected (c : Char)
  | unterminatedString
  | directive
  | bareHash
  | bareMinus
  deriving DecidableEq, Repr

def ScanFault.message : ScanFault → String
  | .unexpected c => "Unexpected character '" ++ c.toString ++ "'"
  | .unterminatedString => "Unterminated string literal"
  | .directive => "Directive syntax '#!' not supported in v0.1.1 input"
  | .bareHash => "Expected symbol after '#'"
  | .bareMinus => "Unexpected '-'"

namespace Scan

/-! ### Character classes -/

def isLayout (c : Char) : Bool := c = ' ' || c = '\t' || c = '\r' || c = '\n'

def isWordStart (c : Char) : Bool := c.isAlpha || c = '_'

/-- Characters that continue a word or a symbol. -/
def isWordChar (c : Char) : Bool := c.isAlphanum || c = '_' || c = '-'

def isNumberStart (c : Char) : Bool := c = '-' || c.isDigit

def notNewline (c : Char) : Bool := c != '\n'

/-! ### Pieces -/

/-- What a step finds at the head of a text. -/
inductive Piece where
  | layout (taken rest : List Char)
  | lexeme (l : Lexeme) (taken rest : List Char)
  /-- A fault after the characters `before`. -/
  | fault (f : ScanFault) (before : List Char)
  deriving DecidableEq, Repr

/-- The body of a string after its opening quote. -/
inductive Body where
  /-- The content, the characters taken with the closing quote, and the rest. -/
  | closed (content taken rest : List Char)
  /-- The characters before the line break or the end where the closing quote is missing. -/
  | unclosed (before : List Char)
  deriving DecidableEq, Repr

/-- Puts characters in front of a body: `c` to its content, `taken` to what is taken. -/
def Body.prepend (c : Char) (taken : List Char) : Body → Body
  | .closed content more rest => .closed (c :: content) (taken ++ more) rest
  | .unclosed before => .unclosed (taken ++ before)

/-- Reads a string after its opening quote. A backslash before a quote or a backslash stands for that
    character; any other backslash stands for itself. -/
def stringBody : List Char → Body
  | [] => .unclosed []
  | '"' :: rest => .closed [] ['"'] rest
  | '\n' :: _ => .unclosed []
  | '\\' :: '"' :: rest => (stringBody rest).prepend '"' ['\\', '"']
  | '\\' :: '\\' :: rest => (stringBody rest).prepend '\\' ['\\', '\\']
  | c :: rest => (stringBody rest).prepend c [c]

/-- The piece of a text that begins with a quote before `cs`. -/
def stringPiece (cs : List Char) : Piece :=
  match stringBody cs with
  | .closed content taken rest => .lexeme (.string (String.ofList content)) ('"' :: taken) rest
  | .unclosed before => .fault .unterminatedString ('"' :: before)

/-- The piece of a text that begins with a hash before `cs`. -/
def symbolPiece (cs : List Char) : Piece :=
  if cs.head? = some '!' then .fault .directive []
  else
    let name := cs.takeWhile isWordChar
    if name.isEmpty then .fault .bareHash ['#']
    else .lexeme (.symbol (String.ofList name)) ('#' :: name) (cs.dropWhile isWordChar)

/-- The longest numeral without a sign at the head of a text, and the rest. A point belongs to it only before a
    digit. -/
def splitUnsigned (cs : List Char) : Option (List Char × List Char) :=
  let whole := cs.takeWhile Char.isDigit
  if whole.isEmpty then none
  else match cs.dropWhile Char.isDigit with
    | '.' :: d :: more =>
      if d.isDigit then
        some (whole ++ '.' :: (d :: more).takeWhile Char.isDigit, (d :: more).dropWhile Char.isDigit)
      else some (whole, '.' :: d :: more)
    | rest => some (whole, rest)

/-- The longest numeral at the head of a text, and the rest. -/
def splitNumeral : List Char → Option (List Char × List Char)
  | '-' :: cs => (splitUnsigned cs).map fun p => ('-' :: p.1, p.2)
  | cs => splitUnsigned cs

/-- The piece of a text that begins with a minus sign or a digit. -/
def numberPiece (cs : List Char) : Piece :=
  match splitNumeral cs with
  | some (numeral, rest) => .lexeme (.number (String.ofList numeral)) numeral rest
  | none => .fault .bareMinus []

/-- The query that a word is, in any letter case. -/
def query? (word : List Char) : Option Query :=
  let capitals := word.map Char.toUpper
  if capitals = Query.check.name.toList then some .check
  else if capitals = Query.eval.name.toList then some .eval
  else none

def wordLexeme (word : List Char) : Lexeme :=
  match query? word with
  | some q => .query q
  | none => .word (String.ofList word)

/-- The piece of a text that begins with `c` before `cs` where only a mark is left to begin it. -/
def markPiece (c : Char) (cs : List Char) : Piece :=
  match Mark.ofChar? c with
  | some m => .lexeme (.mark m) [c] cs
  | none => .fault (.unexpected c) []

/-- The piece at the head of the text `c :: cs`. -/
def step (c : Char) (cs : List Char) : Piece :=
  if isLayout c then .layout [c] cs
  else if c = '/' ∧ cs.head? = some '/' then .layout (c :: cs.takeWhile notNewline) (cs.dropWhile notNewline)
  else if c = '"' then stringPiece cs
  else if c = '#' then symbolPiece cs
  else if isNumberStart c then numberPiece (c :: cs)
  else if isWordStart c then
    .lexeme (wordLexeme (c :: cs.takeWhile isWordChar)) (c :: cs.takeWhile isWordChar) (cs.dropWhile isWordChar)
  else markPiece c cs

/-! ### What a step takes -/

/-- The piece takes at least one character, and with what it leaves makes up the text. -/
def Piece.Splits (text : List Char) : Piece → Prop
  | .layout taken rest => taken ≠ [] ∧ taken ++ rest = text
  | .lexeme _ taken rest => taken ≠ [] ∧ taken ++ rest = text
  | .fault _ before => before <+: text

theorem stringBody_splits : ∀ cs : List Char, match stringBody cs with
    | .closed _ taken rest => taken ++ rest = cs
    | .unclosed before => before <+: cs := by
  intro cs
  fun_induction stringBody cs with
  | case1 => simp
  | case2 => simp
  | case3 => simp
  | case4 rest ih =>
    cases h : stringBody rest <;> simp_all [Body.prepend]
  | case5 rest ih =>
    cases h : stringBody rest <;> simp_all [Body.prepend]
  | case6 c rest _ _ _ _ ih =>
    cases h : stringBody rest <;> simp_all [Body.prepend]

theorem splitUnsigned_splits {cs numeral rest : List Char} (h : splitUnsigned cs = some (numeral, rest)) :
    numeral ≠ [] ∧ numeral ++ rest = cs := by
  have all := List.takeWhile_append_dropWhile (p := Char.isDigit) (l := cs)
  unfold splitUnsigned at h
  simp only at h
  split at h
  · cases h
  · rename_i hne
    rw [List.isEmpty_iff] at hne
    split at h
    · rename_i d more hd
      split at h
      · cases h
        refine ⟨by simp, ?_⟩
        rw [List.append_assoc, List.cons_append, List.takeWhile_append_dropWhile, ← hd, all]
      · cases h
        exact ⟨hne, hd ▸ all⟩
    · cases h
      exact ⟨hne, all⟩

theorem splitNumeral_splits {cs numeral rest : List Char} (h : splitNumeral cs = some (numeral, rest)) :
    numeral ≠ [] ∧ numeral ++ rest = cs := by
  unfold splitNumeral at h
  split at h
  · obtain ⟨p, hp, he⟩ := Option.map_eq_some_iff.1 h
    cases he
    exact ⟨by simp, by rw [List.cons_append, (splitUnsigned_splits hp).2]⟩
  · exact splitUnsigned_splits h

theorem step_taken (c : Char) (cs : List Char) : (step c cs).Splits (c :: cs) := by
  unfold step
  split
  · simp [Piece.Splits]
  split
  · simp [Piece.Splits, List.takeWhile_append_dropWhile]
  split
  · rename_i h
    subst h
    have := stringBody_splits cs
    unfold stringPiece
    split <;> simp_all [Piece.Splits]
  split
  · rename_i h
    subst h
    unfold symbolPiece
    split
    · simp [Piece.Splits]
    · dsimp only
      split <;> simp [Piece.Splits, List.takeWhile_append_dropWhile]
  split
  · unfold numberPiece
    split
    · rename_i h
      exact splitNumeral_splits h
    · simp [Piece.Splits]
  split
  · simp [Piece.Splits, List.takeWhile_append_dropWhile]
  · unfold markPiece
    split <;> simp [Piece.Splits]

theorem length_lt_of_splits {text taken rest : List Char} (h : taken ≠ [] ∧ taken ++ rest = text) :
    rest.length < text.length := by
  rw [← h.2, List.length_append]
  have := List.length_pos_iff.2 h.1
  omega

/-! ### Scanning -/

/-- A fault and the place where it is reported. -/
structure Failure where
  fault : ScanFault
  position : Position
  deriving DecidableEq, Repr

/-- Puts a token in front of a token list. -/
def push (t : Token) (ts : TokenList) : TokenList := { ts with tokens := t :: ts.tokens }

/-- The tokens of a text that stands at `p`. -/
def scan (p : Position) : List Char → Except Failure TokenList
  | [] => .ok ⟨[], p⟩
  | c :: cs =>
    match _h : step c cs with
    | .layout taken rest => scan (p.after taken) rest
    | .lexeme l taken rest => (scan (p.after taken) rest).map (push ⟨l, p⟩)
    | .fault f before => .error ⟨f, p.after before⟩
  termination_by cs => cs.length
  decreasing_by
    · have := step_taken c cs
      rw [_h] at this
      exact length_lt_of_splits this
    · have := step_taken c cs
      rw [_h] at this
      exact length_lt_of_splits this

theorem scan_nil (p : Position) : scan p [] = .ok ⟨[], p⟩ := by
  rw [scan]

theorem scan_of_layout {c : Char} {cs taken rest : List Char} (h : step c cs = .layout taken rest) (p : Position) :
    scan p (c :: cs) = scan (p.after taken) rest := by
  rw [scan]
  split <;> simp_all

theorem scan_of_lexeme {c : Char} {cs taken rest : List Char} {l : Lexeme} (h : step c cs = .lexeme l taken rest)
    (p : Position) : scan p (c :: cs) = (scan (p.after taken) rest).map (push ⟨l, p⟩) := by
  rw [scan]
  split <;> simp_all

theorem scan_of_fault {c : Char} {cs before : List Char} {f : ScanFault} (h : step c cs = .fault f before)
    (p : Position) : scan p (c :: cs) = .error ⟨f, p.after before⟩ := by
  rw [scan]
  split <;> simp_all

end Scan

def tokens (text : List Char) : Except Scan.Failure TokenList := Scan.scan .start text

end Appraisal.Submission
