/-! Classes of characters (Unicode 14). A class is given by a table of spans of code points: a character belongs to it
    when one span covers it. White space is such a class, and texts are freed of it at their ends. Every script with
    decimal digits of its own has ten of them in a row, from zero to nine; a plain digit is its own plain form
    (`plainDigit?_of_isDigit`). -/

namespace Appraisal.Text

/-! ### Spans -/

/-- The code points from `first` to `last`, both included. -/
structure Span where
  first : Nat
  last : Nat
  deriving DecidableEq, Repr

namespace Span

def covers (s : Span) (n : Nat) : Bool := s.first ≤ n && n ≤ s.last

/-- The character is covered by a span of the table. -/
def member (table : List Span) (c : Char) : Bool := table.any (·.covers c.toNat)

theorem covers_iff {s : Span} {n : Nat} : s.covers n = true ↔ s.first ≤ n ∧ n ≤ s.last := by
  simp [covers]

theorem member_iff {table : List Span} {c : Char} :
    member table c = true ↔ ∃ s ∈ table, s.first ≤ c.toNat ∧ c.toNat ≤ s.last := by
  simp [member, covers_iff]

end Span

/-! ### White space -/

/-- The white space characters: tab to carriage return, the four information separators, the space, the
    next-line control, and the space, line and paragraph separators. -/
def blanks : List Span :=
  [⟨0x9, 0xD⟩, ⟨0x1C, 0x20⟩, ⟨0x85, 0x85⟩, ⟨0xA0, 0xA0⟩, ⟨0x1680, 0x1680⟩, ⟨0x2000, 0x200A⟩, ⟨0x2028, 0x2029⟩,
    ⟨0x202F, 0x202F⟩, ⟨0x205F, 0x205F⟩, ⟨0x3000, 0x3000⟩]

def isBlank (c : Char) : Bool := Span.member blanks c

/-- The text without the blanks at its end. -/
def stripRight (cs : List Char) : List Char := (cs.reverse.dropWhile isBlank).reverse

/-- The text without the blanks at its two ends. -/
def strip (cs : List Char) : List Char := stripRight (cs.dropWhile isBlank)

@[simp] theorem strip_nil : strip [] = [] := rfl

/-! ### Decimal digits -/

/-- The zeros of all scripts. -/
def zeros : List Nat :=
  [0x30, 0x660, 0x6F0, 0x7C0, 0x966, 0x9E6, 0xA66, 0xAE6, 0xB66, 0xBE6, 0xC66, 0xCE6, 0xD66, 0xDE6, 0xE50, 0xED0,
    0xF20, 0x1040, 0x1090, 0x17E0, 0x1810, 0x1946, 0x19D0, 0x1A80, 0x1A90, 0x1B50, 0x1BB0, 0x1C40, 0x1C50, 0xA620,
    0xA8D0, 0xA900, 0xA9D0, 0xA9F0, 0xAA50, 0xABF0, 0xFF10, 0x104A0, 0x10D30, 0x11066, 0x110F0, 0x11136, 0x111D0,
    0x112F0, 0x11450, 0x114D0, 0x11650, 0x116C0, 0x11730, 0x118E0, 0x11950, 0x11C50, 0x11D50, 0x11DA0, 0x16A60,
    0x16AC0, 0x16B50, 0x1D7CE, 0x1D7D8, 0x1D7E2, 0x1D7EC, 0x1D7F6, 0x1E140, 0x1E2F0, 0x1E950, 0x1FBF0]

/-- The plain digit, from `0` to `9`, with the value of a digit of any script. -/
def plainDigit? (c : Char) : Option Char :=
  if c.isDigit then some c
  else (zeros.find? fun z => z ≤ c.toNat && c.toNat < z + 10).map fun z => Char.ofNat (48 + (c.toNat - z))

theorem plainDigit?_of_isDigit {c : Char} (h : c.isDigit = true) : plainDigit? c = some c := if_pos h

/-- The digits of a text in plain form. A single underscore may stand between two digits and does not count. -/
def plainDigits? : List Char → Option (List Char)
  | [] => none
  | [c] => (plainDigit? c).map ([·])
  | c :: '_' :: cs => do return (← plainDigit? c) :: (← plainDigits? cs)
  | c :: d :: cs => do return (← plainDigit? c) :: (← plainDigits? (d :: cs))

end Appraisal.Text

namespace Appraisal

/-- The text without the white space at its two ends. -/
def stripText (s : String) : String := String.ofList (Text.strip s.toList)

end Appraisal
