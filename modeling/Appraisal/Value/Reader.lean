import Appraisal.Number.Numeral
import Appraisal.Text.Hex
import Appraisal.Value.Basic

/-! Reading a value from its text (JSON). Of equal keys the last value counts, in the position of the first. The
    names `NaN`, `Infinity` and `-Infinity` are read as numbers. A number is an integer unless it has a fraction
    or an exponent. How deep lists and mappings may stand in one another depends on how much room the reader has. -/

namespace Appraisal.Value

/-- Why a text cannot be read as a value. -/
inductive ReadFault where
  | malformed
  | tooDeep
  | tooManyDigits (e : TooManyDigits)
  deriving DecidableEq, Repr

namespace Reader

/-- A part that was read and the rest of the text. -/
abbrev Part (α : Type) := Except ReadFault (α × List Char)

def isSpace (c : Char) : Bool := c = ' ' || c = '\t' || c = '\n' || c = '\r'

def skipSpace (cs : List Char) : List Char := cs.dropWhile isSpace

/-- The character that stands for itself or for a control after a backslash. -/
def simpleEscape? (c : Char) : Option Char :=
  if c = '"' ∨ c = '\\' ∨ c = '/' then some c
  else if c = 'b' then some '\x08'
  else if c = 'f' then some '\x0c'
  else if c = 'n' then some '\n'
  else if c = 'r' then some '\r'
  else if c = 't' then some '\t'
  else none

def isHighSurrogate (n : Nat) : Bool := 0xD800 ≤ n && n < 0xDC00

def isLowSurrogate (n : Nat) : Bool := 0xDC00 ≤ n && n < 0xE000

/-- The characters of code points: a high and a low surrogate together are one character, and a surrogate
    without its partner is replaced. -/
def joinSurrogates : List Nat → List Char
  | [] => []
  | [n] => [if isHighSurrogate n || isLowSurrogate n then '\uFFFD' else Char.ofNat n]
  | n :: m :: rest =>
    if isHighSurrogate n && isLowSurrogate m then
      Char.ofNat (0x10000 + (n - 0xD800) * 0x400 + (m - 0xDC00)) :: joinSurrogates rest
    else if isHighSurrogate n || isLowSurrogate n then '\uFFFD' :: joinSurrogates (m :: rest)
    else Char.ofNat n :: joinSurrogates (m :: rest)

/-- Puts a code point in front of the rest of a text. -/
def prepend (n : Nat) : Part (List Nat) → Part (List Nat) := Except.map fun p => (n :: p.1, p.2)

/-- The code points of a text after its opening quote. -/
def textBody : List Char → Part (List Nat)
  | [] => .error .malformed
  | '"' :: rest => .ok ([], rest)
  | '\\' :: 'u' :: a :: b :: c :: d :: rest =>
    match Text.ofHex? [a, b, c, d] with
    | some n => prepend n (textBody rest)
    | none => .error .malformed
  | '\\' :: c :: rest =>
    match simpleEscape? c with
    | some x => prepend x.toNat (textBody rest)
    | none => .error .malformed
  | c :: rest => if c.toNat < 0x20 then .error .malformed else prepend c.toNat (textBody rest)

def text (cs : List Char) : Part String := (textBody cs).map fun p => (String.ofList (joinSurrogates p.1), p.2)

/-- The digits at the head of a text, and the rest. -/
def digits (cs : List Char) : List Char × List Char := (cs.takeWhile Char.isDigit, cs.dropWhile Char.isDigit)

/-- A fraction with at least one digit; without one, no character is taken. -/
def fraction : List Char → List Char × List Char
  | '.' :: cs => match digits cs with
    | ([], _) => ([], '.' :: cs)
    | part => part
  | cs => ([], cs)

/-- An exponent with at least one digit; without one, no character is taken. -/
def exponent (cs : List Char) : Option Int × List Char :=
  match cs with
  | e :: rest =>
    if e = 'e' ∨ e = 'E' then
      let (sign, body) : Int × List Char := match rest with
        | '-' :: r => (-1, r)
        | '+' :: r => (1, r)
        | r => (1, r)
      match digits body with
      | ([], _) => (none, cs)
      | (ds, after) => (some (sign * Nat.ofDigitChars 10 ds 0), after)
    else (none, cs)
  | [] => (none, [])

def number (negative : Bool) (cs : List Char) : Part Number :=
  let (whole, rest) := match cs with
    | '0' :: r => (['0'], r)
    | cs => digits cs
  if whole.isEmpty then .error .malformed
  else
    let (part, rest) := fraction rest
    let (power, rest) := exponent rest
    if part.isEmpty && power.isNone then
      if digitLimit < whole.length then .error (.tooManyDigits ⟨whole.length⟩)
      else
        let n : Int := Nat.ofDigitChars 10 whole 0
        .ok (.int (if negative then -n else n), rest)
    else
      let digits := Nat.ofDigitChars 10 (whole ++ part) 0
      .ok (.real (.ofScientific negative digits (power.getD 0 - part.length)), rest)

/-- The words with a value of their own. -/
def words : List (List Char × Value) :=
  [("null".toList, .null), ("true".toList, .bool true), ("false".toList, .bool false),
    ("NaN".toList, .number (.real .nan)), ("Infinity".toList, .number (.real (.infinite false))),
    ("-Infinity".toList, .number (.real (.infinite true)))]

/-- A value that is neither a list, a mapping nor a text. -/
def plain (cs : List Char) : Part Value :=
  match words.find? fun w => w.1.isPrefixOf cs with
  | some (word, v) => .ok (v, cs.drop word.length)
  | none =>
    let (negative, body) := Numeral.splitMinus cs
    (number negative body).map fun p => (.number p.1, p.2)

mutual

/-- A value at the head of a text, in which lists and mappings may go `depth` deep. The fuel bounds the number of
    parts. -/
def value : (fuel depth : Nat) → List Char → Part Value
  | 0, _, _ => .error .malformed
  | _ + 1, 0, '[' :: _ | _ + 1, 0, '\x7b' :: _ => .error .tooDeep
  | fuel + 1, depth + 1, '[' :: rest => match skipSpace rest with
    | ']' :: rest => .ok (.list [], rest)
    | rest => items fuel depth [] rest
  | fuel + 1, depth + 1, '\x7b' :: rest => match skipSpace rest with
    | '\x7d' :: rest => .ok (.map [], rest)
    | rest => members fuel depth [] rest
  | _ + 1, _, '"' :: rest => (text rest).map fun p => (.text p.1, p.2)
  | _ + 1, _, cs => plain cs

/-- The items of a list from the next one on, after those `before`, the last of which comes first. -/
def items : (fuel depth : Nat) → (before : List Value) → List Char → Except ReadFault (Value × List Char)
  | 0, _, _, _ => .error .malformed
  | fuel + 1, depth, before, cs => do
    let (v, rest) ← value fuel depth cs
    match skipSpace rest with
    | ',' :: rest => items fuel depth (v :: before) (skipSpace rest)
    | ']' :: rest => .ok (.list (v :: before).reverse, rest)
    | _ => .error .malformed

/-- The entries of a mapping from the next one on, after those `before`. -/
def members : (fuel depth : Nat) → (before : List (String × Value)) → List Char →
    Except ReadFault (Value × List Char)
  | 0, _, _, _ => .error .malformed
  | fuel + 1, depth, before, '"' :: cs => do
    let (key, rest) ← text cs
    match skipSpace rest with
    | ':' :: rest =>
      let (v, rest) ← value fuel depth (skipSpace rest)
      let entries := Entries.put key v before
      match skipSpace rest with
      | ',' :: rest => members fuel depth entries (skipSpace rest)
      | '\x7d' :: rest => .ok (.map entries, rest)
      | _ => .error .malformed
    | _ => .error .malformed
  | _ + 1, _, _, _ => .error .malformed

end

end Reader

/-- The value that a whole text stands for, in which lists and mappings may go `depth` deep. -/
def read (depth : Nat) (cs : List Char) : Except ReadFault Value := do
  let (v, rest) ← Reader.value (cs.length + 1) depth (Reader.skipSpace cs)
  if (Reader.skipSpace rest).isEmpty then .ok v else .error .malformed

end Appraisal.Value
