import Appraisal.Proofs.Text.Case
import Appraisal.Submission.Program

/-! Backticks and lower case. No other character has a backtick for its lower case, and a backtick is none of the
    neighbours that the lower case of a capital sigma depends on; so backticks may be dropped before or after a text
    is put in lower case (`dropBackticks_lower`). -/

namespace Appraisal.Submission
open Text.Case

theorem lowerChar_backtick : lowerChar '\x60' = '\x60' := by decide +kernel

theorem isIgnorable_backtick : isIgnorable '\x60' = true := by decide +kernel

theorem eq_backtick_of_lowerChar {c : Char} (h : lowerChar c = '\x60') : c = '\x60' :=
  eq_of_lowerChar_eq (by decide +kernel) h

/-! ### Dropping backticks before and after -/

@[simp] theorem dropBackticks_append (a b : List Char) : dropBackticks (a ++ b) = dropBackticks a ++ dropBackticks b :=
  List.filter_append ..

theorem backtick_not_mem_dropBackticks {cs : List Char} : '\x60' ∉ dropBackticks cs := by
  simp [dropBackticks]

theorem dropBackticks_eq_self {cs : List Char} (h : '\x60' ∉ cs) : dropBackticks cs = cs := by
  refine List.filter_eq_self.2 fun c hc => ?_
  simp only [bne_iff_ne]
  rintro rfl
  exact h hc

theorem lowerAt_backtick (after : Bool) (rest : List Char) : lowerAt after '\x60' rest = ['\x60'] := by
  rw [lowerAt, if_neg (by decide), if_neg (by decide), lowerChar_backtick]

theorem backtick_not_mem_lowerAt {c : Char} (hc : c ≠ '\x60') (after : Bool) (rest : List Char) :
    '\x60' ∉ lowerAt after c rest := by
  unfold lowerAt
  split
  · split <;> decide
  split
  · decide
  · rw [List.mem_singleton]
    exact fun h => hc (eq_backtick_of_lowerChar h.symm)

/-- The first character that is not ignored is the same without backticks. -/
theorem head?_dropWhile_dropBackticks (cs : List Char) :
    ((dropBackticks cs).dropWhile isIgnorable).head? = (cs.dropWhile isIgnorable).head? := by
  induction cs with
  | nil => rfl
  | cons c cs ih =>
    by_cases hc : c = '\x60'
    · subst hc
      simpa [dropBackticks, isIgnorable_backtick] using ih
    · have hkept : dropBackticks (c :: cs) = c :: dropBackticks cs := List.filter_cons_of_pos (by simpa using hc)
      rw [hkept]
      by_cases hi : isIgnorable c = true <;> simp [hi, ih]

theorem lowerAt_dropBackticks (after : Bool) (c : Char) (rest : List Char) :
    lowerAt after c (dropBackticks rest) = lowerAt after c rest := by
  rw [lowerAt, head?_dropWhile_dropBackticks, lowerAt]

theorem dropBackticks_lowerFrom (after : Bool) (cs : List Char) :
    dropBackticks (lowerFrom after cs) = lowerFrom after (dropBackticks cs) := by
  induction cs generalizing after with
  | nil => rfl
  | cons c cs ih =>
    rw [lowerFrom, dropBackticks_append, ih]
    by_cases hc : c = '\x60'
    · -- What stood before a backtick stands before what follows it.
      subst hc
      have hstep : stepCased after '\x60' = after := if_pos isIgnorable_backtick
      rw [lowerAt_backtick, hstep]
      rfl
    · have hkept : dropBackticks (c :: cs) = c :: dropBackticks cs := List.filter_cons_of_pos (by simpa using hc)
      rw [hkept, lowerFrom, lowerAt_dropBackticks, dropBackticks_eq_self (backtick_not_mem_lowerAt hc after cs)]

/-- Backticks may be dropped after a text is put in lower case, or before. -/
theorem dropBackticks_lower (cs : List Char) : dropBackticks (lower cs) = lower (dropBackticks cs) :=
  dropBackticks_lowerFrom false cs

end Appraisal.Submission
