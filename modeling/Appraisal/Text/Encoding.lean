/-! Text as bytes (UTF-8) and as 16-bit units (UTF-16). Ill-formed bytes are kept apart from characters, so that a reader
    may refuse them or put a replacement character in their place. A character below U+10000 is one unit, any other a
    high and a low surrogate. Texts in files have line ends of three kinds, which readers take for one. -/

namespace Appraisal.Text

/-- The text with line feeds for all line ends: carriage returns, with or without a line feed. -/
def plainLineEnds : List Char → List Char
  | [] => []
  | '\r' :: '\n' :: cs => '\n' :: plainLineEnds cs
  | '\r' :: cs => '\n' :: plainLineEnds cs
  | c :: cs => c :: plainLineEnds cs

/-! ### Units -/

def charUnits (c : Char) : List UInt16 :=
  if c.toNat < 0x10000 then [UInt16.ofNat c.toNat]
  else
    let n := c.toNat - 0x10000
    [UInt16.ofNat (0xD800 + n / 0x400), UInt16.ofNat (0xDC00 + n % 0x400)]

def units (cs : List Char) : List UInt16 := cs.flatMap charUnits

@[simp] theorem units_append (a b : List Char) : units (a ++ b) = units a ++ units b := List.flatMap_append

end Appraisal.Text

/-! ### Bytes -/

namespace Appraisal.Text.Utf8

/-- The number of continuation bytes that a first byte announces, the bits that it contributes, and the
    bounds of the second byte, which rule out overlong forms, surrogates and numbers above U+10FFFF. -/
def lead? (b : UInt8) : Option (Nat × Nat × UInt8 × UInt8) :=
  if 0xC2 ≤ b && b ≤ 0xDF then some (1, b.toNat - 0xC0, 0x80, 0xBF)
  else if b == 0xE0 then some (2, 0, 0xA0, 0xBF)
  else if b == 0xED then some (2, 0xD, 0x80, 0x9F)
  else if 0xE1 ≤ b && b ≤ 0xEF then some (2, b.toNat - 0xE0, 0x80, 0xBF)
  else if b == 0xF0 then some (3, 0, 0x90, 0xBF)
  else if 0xF1 ≤ b && b ≤ 0xF3 then some (3, b.toNat - 0xF0, 0x80, 0xBF)
  else if b == 0xF4 then some (3, 4, 0x80, 0x8F)
  else none

/-- Takes up to `count` continuation bytes, the first within `low` and `high`. Gives the number read so far
    if all are there. -/
def continuation : (count acc : Nat) → (low high : UInt8) → List UInt8 → Option Nat × List UInt8
  | 0, acc, _, _, bytes => (some acc, bytes)
  | _ + 1, _, _, _, [] => (none, [])
  | count + 1, acc, low, high, b :: bytes =>
    if low ≤ b && b ≤ high then continuation count (64 * acc + (b.toNat - 0x80)) 0x80 0xBF bytes
    else (none, b :: bytes)

theorem length_continuation_le (count acc : Nat) (low high : UInt8) (bytes : List UInt8) :
    (continuation count acc low high bytes).2.length ≤ bytes.length := by
  induction bytes generalizing count acc low high with
  | nil => cases count <;> simp [continuation]
  | cons b bytes ih =>
    cases count with
    | zero => simp [continuation]
    | succ n =>
      rw [continuation]
      split
      · exact Nat.le_succ_of_le (ih ..)
      · simp

/-- The first character of some bytes, or `none` for an ill-formed sequence, and the bytes after it. -/
def next (b : UInt8) (bytes : List UInt8) : Option Char × List UInt8 :=
  if b < 0x80 then (some (Char.ofNat b.toNat), bytes)
  else match lead? b with
    | none => (none, bytes)
    | some (count, bits, low, high) =>
      let (n, rest) := continuation count bits low high bytes
      (n.map Char.ofNat, rest)

theorem length_next_le (b : UInt8) (bytes : List UInt8) : (next b bytes).2.length ≤ bytes.length := by
  unfold next
  split
  · exact Nat.le_refl _
  · split
    · exact Nat.le_refl _
    · exact length_continuation_le ..

/-- The characters of the bytes; `none` stands where a sequence is ill-formed. -/
def decode : List UInt8 → List (Option Char)
  | [] => []
  | b :: bytes => (next b bytes).1 :: decode (next b bytes).2
  termination_by bytes => bytes.length
  decreasing_by exact Nat.lt_succ_of_le (length_next_le b bytes)

/-- The text, if all bytes are well formed. -/
def decode? (bytes : List UInt8) : Option (List Char) := (decode bytes).mapM id

/-- The text with U+FFFD for every ill-formed sequence. -/
def decodeLossy (bytes : List UInt8) : List Char := (decode bytes).map (·.getD '\uFFFD')

end Appraisal.Text.Utf8
