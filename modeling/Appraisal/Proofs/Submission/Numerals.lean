import Appraisal.Proofs.Number.Pattern
import Appraisal.Proofs.Submission.Faults

/-! Numbers in the two notations. The scanner takes a number character by character, and a line has a number where its
    value has the pattern of one. Both know the same numbers (`recognisers_agree`): a text is one number token exactly if it
    has the pattern, and every number that the scanner takes on its way has it, also before a fault. -/

namespace Appraisal.Submission
open Scan Numeral

theorem lexes_number_iff {raw : List Char} :
    Lexes [.number (String.ofList raw)] raw ↔ ∃ n : Plain, n.chars = raw := by
  constructor
  · rintro ⟨ts, hts, hlexemes⟩
    have htakes : Takes raw (.number (String.ofList raw)) := by
      rw [Takes.iff_mem_of_scan hts, hlexemes]
      exact List.mem_singleton_self _
    obtain ⟨n, hn⟩ := plain_of_takes htakes _ rfl
    exact ⟨n, hn.trans String.toList_ofList⟩
  · rintro ⟨n, rfl⟩
    have hone := Lexes.cons (.spelling (.number n)) (Lexeme.whole_nil _) (.finish (.layout .nil))
    rwa [List.append_nil] at hone

/-- A plain numeral cannot be read exactly if it has no point and more digits than an integer may have. -/
theorem read_chars_eq_error_iff_digits {n : Plain} {f : Numeral.Fault} :
    Numeral.read n.chars = .error f ↔ '.' ∉ n.chars ∧ digitLimit < n.chars.countP Char.isDigit ∧
      f = .tooManyDigits ⟨n.chars.countP Char.isDigit⟩ := by
  rw [read_chars_eq_error_iff, Plain.Overlong, point_mem_iff, List.countP_eq_length_filter]
  cases hf : n.fraction with
  | none => simp [digits_of_integer hf]
  | some ds => simp

/-- A text that does not end with a line feed is one number token exactly if it has the pattern of a number up to the end
    of the line, which is when the line notation takes it for a number. Every number that the scanner takes on its way
    has this pattern, so that it is read unless it is an integer with too many digits. -/
theorem recognisers_agree :
    (∀ raw : List Char, raw.getLast? ≠ some '\n' →
      (Lexes [.number (String.ofList raw)] raw ↔ raw ∈ Pattern.numeralLine.matches') ∧
      (isNumeral raw = true ↔ raw ∈ Pattern.numeralLine.matches')) ∧
    ∀ text numeral, Takes text (.number numeral) → numeral.toList ∈ Pattern.numeralLine.matches' ∧
      ∀ f, Numeral.read numeral.toList = .error f ↔ '.' ∉ numeral.toList ∧
        digitLimit < numeral.toList.countP Char.isDigit ∧
        f = .tooManyDigits ⟨numeral.toList.countP Char.isDigit⟩ := by
  constructor
  · intro raw hraw
    rw [Pattern.mem_numeralLine_iff hraw]
    exact ⟨lexes_number_iff.trans Pattern.mem_numeral_iff.symm, Pattern.isNumeral_iff_mem⟩
  · intro text numeral htakes
    obtain ⟨n, hn⟩ := plain_of_takes htakes _ rfl
    rw [← hn]
    exact ⟨Pattern.mem_numeralLine_of_mem (Pattern.mem_numeral_iff.2 ⟨n, rfl⟩), fun f => read_chars_eq_error_iff_digits⟩

/-- A number with a sign and a point, one that ends with its point, and one before a fault. -/
theorem recognisers_agree_pointed :
    Lexes [.number "-0.50"] "-0.50".toList ∧ ¬ Lexes [.number "3."] "3.".toList ∧
      (∃ f, tokens "007 ?".toList = .error f) ∧ "007".toList ∈ Pattern.numeralLine.matches' := by
  obtain ⟨hwhole, htaken⟩ := recognisers_agree
  refine ⟨(hwhole _ (by decide)).1.2 (by decide), fun h => ?_, ⟨⟨.unexpected '?', ⟨1, 5, 4⟩⟩, by decide +kernel⟩, ?_⟩
  · exact absurd ((hwhole "3.".toList (by decide)).1.1 h) (by decide)
  · have hstep : step '0' "07 ?".toList = .lexeme (.number "007") "007".toList " ?".toList := by decide +kernel
    exact (htaken _ "007" (.here hstep)).1

end Appraisal.Submission
