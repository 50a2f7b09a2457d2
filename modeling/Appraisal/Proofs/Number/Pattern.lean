import Appraisal.Proofs.Number.Plain
import Mathlib.Computability.RegularExpressions

/-! The plain form of a numeral as a regular expression, `-?[0-9]+(\.[0-9]+)?`. Its language are the texts of the plain
    numerals (`mem_numeral_iff`), so `isNumeral` accepts exactly this language. A pattern that reaches up to the end of a
    line leaves room for one line feed after it (`numeralLine`). -/

namespace Appraisal.Numeral.Pattern
open RegularExpression

/-! ### Parts -/

/-- One of the characters. -/
def oneOf (cs : List Char) : RegularExpression Char := (cs.map char).sum

def optional (r : RegularExpression Char) : RegularExpression Char := 1 + r

/-- One or more times. -/
def repeated (r : RegularExpression Char) : RegularExpression Char := r * r.star

def tenDigits : List Char := ['0', '1', '2', '3', '4', '5', '6', '7', '8', '9']

def digits : RegularExpression Char := repeated (oneOf tenDigits)

variable {r s : RegularExpression Char} {cs ds : List Char} {c : Char}

theorem mem_char_iff : cs ∈ (char c).matches' ↔ cs = [c] := Iff.rfl

theorem mem_mul_iff : cs ∈ (r * s).matches' ↔ ∃ a ∈ r.matches', ∃ b ∈ s.matches', a ++ b = cs := Language.mem_mul

theorem mem_optional_iff : cs ∈ (optional r).matches' ↔ cs = [] ∨ cs ∈ r.matches' := Iff.rfl

theorem mem_oneOf_iff : cs ∈ (oneOf ds).matches' ↔ ∃ d ∈ ds, cs = [d] := by
  induction ds with
  | nil => simp [oneOf, Language.notMem_zero]
  | cons d ds ih =>
    have hsplit : cs ∈ (oneOf (d :: ds)).matches' ↔ cs = [d] ∨ cs ∈ (oneOf ds).matches' := Iff.rfl
    rw [hsplit, ih, List.exists_mem_cons_iff]

theorem mem_star_oneOf_iff : cs ∈ (oneOf ds).star.matches' ↔ ∀ c ∈ cs, c ∈ ds := by
  rw [matches'_star, Language.mem_kstar]
  constructor
  · rintro ⟨parts, rfl, hparts⟩ c hc
    obtain ⟨part, hpart, hc⟩ := List.mem_flatten.1 hc
    obtain ⟨d, hd, rfl⟩ := mem_oneOf_iff.1 (hparts part hpart)
    rwa [List.mem_singleton.1 hc]
  · intro h
    refine ⟨cs.map ([·]), ?_, fun part hpart => ?_⟩
    · rw [← List.flatMap_def, List.flatMap_singleton']
    · obtain ⟨c, hc, rfl⟩ := List.mem_map.1 hpart
      exact mem_oneOf_iff.2 ⟨c, h c hc, rfl⟩

theorem mem_repeated_oneOf_iff : cs ∈ (repeated (oneOf ds)).matches' ↔ cs ≠ [] ∧ ∀ c ∈ cs, c ∈ ds := by
  rw [repeated, mem_mul_iff]
  constructor
  · rintro ⟨a, ha, b, hb, rfl⟩
    obtain ⟨d, hd, rfl⟩ := mem_oneOf_iff.1 ha
    exact ⟨by simp, List.forall_mem_cons.2 ⟨hd, mem_star_oneOf_iff.1 hb⟩⟩
  · rintro ⟨hne, h⟩
    obtain ⟨d, ds', rfl⟩ := List.exists_cons_of_ne_nil hne
    obtain ⟨hd, hds⟩ := List.forall_mem_cons.1 h
    exact ⟨[d], mem_oneOf_iff.2 ⟨d, hd, rfl⟩, ds', mem_star_oneOf_iff.2 hds, rfl⟩

theorem mem_tenDigits_iff : c ∈ tenDigits ↔ c.isDigit = true := by
  constructor
  · have hall : tenDigits.all Char.isDigit = true := by decide
    exact fun h => List.all_eq_true.1 hall c h
  · intro h
    have hten : ∀ k : Fin 10, Char.ofNat (48 + k) ∈ tenDigits := by decide
    have hc := Char.isDigit_iff_toNat.1 h
    have h0 : '0'.toNat = 48 := rfl
    have h9 : '9'.toNat = 57 := rfl
    have hcode : 48 + (c.toNat - 48) = c.toNat := by omega
    have hmem := hten ⟨c.toNat - 48, by omega⟩
    rwa [hcode, Char.ofNat_toNat] at hmem

theorem mem_digits_iff : cs ∈ digits.matches' ↔ cs ≠ [] ∧ ∀ c ∈ cs, c.isDigit = true := by
  simp only [digits, mem_repeated_oneOf_iff, mem_tenDigits_iff]

/-! ### Numerals -/

def numeral : RegularExpression Char := optional (char '-') * digits * optional (char '.' * digits)

/-- A numeral up to the end of the line, where a line feed may stand. -/
def numeralLine : RegularExpression Char := numeral * optional (char '\n')

theorem mem_sign_iff : cs ∈ (optional (char '-')).matches' ↔ ∃ negative : Bool, cs = if negative then ['-'] else [] := by
  rw [mem_optional_iff, mem_char_iff, Bool.exists_bool]
  rfl

theorem mem_tail_iff : cs ∈ (optional (char '.' * digits)).matches' ↔
    ∃ fraction : Option (List Char), (∀ ds ∈ fraction, ds ∈ digits.matches') ∧ cs = fraction.elim [] ('.' :: ·) := by
  rw [mem_optional_iff, mem_mul_iff]
  constructor
  · rintro (rfl | ⟨_, rfl, ds, hds, rfl⟩)
    · exact ⟨none, by simp, rfl⟩
    · exact ⟨some ds, by simpa using hds, rfl⟩
  · rintro ⟨fraction, hds, rfl⟩
    cases fraction with
    | none => exact .inl rfl
    | some ds => exact .inr ⟨['.'], rfl, ds, hds ds rfl, rfl⟩

theorem mem_numeral_iff : cs ∈ numeral.matches' ↔ ∃ n : Plain, n.chars = cs := by
  simp only [numeral, mem_mul_iff, mem_sign_iff, mem_tail_iff]
  constructor
  · rintro ⟨_, ⟨_, ⟨negative, rfl⟩, whole, hwhole, rfl⟩, _, ⟨fraction, hfraction, rfl⟩, rfl⟩
    obtain ⟨hne, hdigits⟩ := mem_digits_iff.1 hwhole
    exact ⟨⟨negative, whole, fraction, hne, hdigits, fun ds hds => (mem_digits_iff.1 (hfraction ds hds)).1,
      fun ds hds => (mem_digits_iff.1 (hfraction ds hds)).2⟩, rfl⟩
  · rintro ⟨n, rfl⟩
    refine ⟨_, ⟨n.sign, ⟨n.negative, rfl⟩, n.whole, mem_digits_iff.2 ⟨n.whole_ne_nil, n.whole_digits⟩, rfl⟩, n.tail,
      ⟨n.fraction, fun ds hds => ?_, rfl⟩, rfl⟩
    exact mem_digits_iff.2 ⟨n.fraction_ne_nil ds hds, n.fraction_digits ds hds⟩

theorem isNumeral_iff_mem : isNumeral cs = true ↔ cs ∈ numeral.matches' := by
  rw [isNumeral_iff, mem_numeral_iff]

theorem mem_numeralLine_of_mem (h : cs ∈ numeral.matches') : cs ∈ numeralLine.matches' :=
  mem_mul_iff.2 ⟨cs, h, [], mem_optional_iff.2 (.inl rfl), List.append_nil cs⟩

/-- Where the text does not end with a line feed, the end of the line is its end. -/
theorem mem_numeralLine_iff (h : cs.getLast? ≠ some '\n') : cs ∈ numeralLine.matches' ↔ cs ∈ numeral.matches' := by
  refine ⟨fun hcs => ?_, mem_numeralLine_of_mem⟩
  rw [numeralLine, mem_mul_iff] at hcs
  obtain ⟨a, ha, b, rfl | rfl, rfl⟩ := hcs
  · rwa [List.append_nil]
  · exact absurd List.getLast?_concat h

/-- A line feed at the end is allowed once. -/
example : "-7.0\n".toList ∈ numeralLine.matches' ∧ "-7.0\n\n".toList ∉ numeralLine.matches' := by decide

end Appraisal.Numeral.Pattern
