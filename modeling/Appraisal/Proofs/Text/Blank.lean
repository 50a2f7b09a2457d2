import Appraisal.Proofs.Text.Run
import Appraisal.Text.Class

/-! White space around a text. No visible character of ASCII is white space (`isBlank_of_visible`). A text stands between
    white space in what it is stripped from (`exists_strip`); white space put before or behind a text makes no
    difference to stripping it, and a text without any at its ends is left as it is (`strip_eq_self`), such as one that was
    stripped (`first_of_strip`, `last_of_strip`). -/

namespace Appraisal.Text

theorem isBlank_of_visible {c : Char} (hfirst : 0x21 ≤ c.toNat) (hlast : c.toNat ≤ 0x7E) : isBlank c = false := by
  rw [Bool.eq_false_iff]
  intro hblank
  obtain ⟨s, hs, hs₁, hs₂⟩ := Span.member_iff.1 hblank
  simp only [blanks, List.mem_cons, List.not_mem_nil, or_false] at hs
  rcases hs with rfl | rfl | rfl | rfl | rfl | rfl | rfl | rfl | rfl | rfl <;> simp only at hs₁ hs₂ <;> omega

theorem isBlank_of_isAlphanum {c : Char} (h : c.isAlphanum = true) : isBlank c = false := by
  have halpha : c.isAlpha = (decide ('A'.val ≤ c.val ∧ c.val ≤ 'Z'.val) ||
      (decide ('a'.val ≤ c.val) && decide (c.val ≤ 'z'.val))) := rfl
  simp only [Char.isAlphanum, halpha, Bool.or_eq_true, Bool.and_eq_true, decide_eq_true_eq, UInt32.le_iff_toNat_le,
    Char.toNat_val, Char.isDigit_iff_toNat] at h
  have hA : 'A'.toNat = 65 := rfl
  have ha : 'a'.toNat = 97 := rfl
  have hZ : 'Z'.toNat = 90 := rfl
  have hz : 'z'.toNat = 122 := rfl
  have h0 : '0'.toNat = 48 := rfl
  have h9 : '9'.toNat = 57 := rfl
  exact isBlank_of_visible (by omega) (by omega)

variable {cs lead trail : List Char}

theorem stripRight_append (h : ∀ c ∈ trail, isBlank c = true) : stripRight (cs ++ trail) = stripRight cs := by
  rw [stripRight, List.reverse_append, List.dropWhile_append_of_pos fun c hc => h c (List.mem_reverse.1 hc), stripRight]

theorem strip_before (h : ∀ c ∈ lead, isBlank c = true) : strip (lead ++ cs) = strip cs := by
  rw [strip, List.dropWhile_append_of_pos h, strip]

theorem strip_append (h : ∀ c ∈ trail, isBlank c = true) : strip (cs ++ trail) = strip cs := by
  rw [strip, strip, List.dropWhile_append]
  split
  · rename_i hempty
    rw [List.isEmpty_iff.1 hempty, List.dropWhile_eq_nil_iff.2 h]
  · exact stripRight_append h

theorem strip_eq_self (first : ∀ c ∈ cs.head?, isBlank c = false) (last : ∀ c ∈ cs.getLast?, isBlank c = false) :
    strip cs = cs := by
  have hlast : Stops isBlank cs.reverse := fun c hc => last c (by rwa [List.head?_reverse] at hc)
  rw [strip, dropWhile_eq_self first, stripRight, dropWhile_eq_self hlast, List.reverse_reverse]

theorem stripRight_prefix (cs : List Char) : stripRight cs <+: cs := by
  have hsuffix : cs.reverse.dropWhile isBlank <:+ cs.reverse := List.dropWhile_suffix isBlank
  rwa [← List.reverse_prefix, List.reverse_reverse] at hsuffix

theorem first_of_strip (cs : List Char) : ∀ c ∈ (strip cs).head?, isBlank c = false := by
  intro c hc
  obtain ⟨trail, htrail⟩ := stripRight_prefix (cs.dropWhile isBlank)
  refine stops_dropWhile cs c ?_
  rw [← htrail, Option.mem_def, List.head?_append]
  exact Option.or_eq_some_iff.2 (.inl hc)

theorem last_of_strip (cs : List Char) : ∀ c ∈ (strip cs).getLast?, isBlank c = false := by
  intro c hc
  refine stops_dropWhile (cs.dropWhile isBlank).reverse c ?_
  rwa [strip, stripRight, List.getLast?_reverse] at hc

theorem exists_strip (cs : List Char) : ∃ lead trail, cs = lead ++ (strip cs ++ trail) ∧
    (∀ c ∈ lead, isBlank c = true) ∧ ∀ c ∈ trail, isBlank c = true := by
  refine ⟨cs.takeWhile isBlank, ((cs.dropWhile isBlank).reverse.takeWhile isBlank).reverse, ?_, ?_, ?_⟩
  · rw [strip, stripRight, ← List.reverse_append, List.takeWhile_append_dropWhile, List.reverse_reverse,
      List.takeWhile_append_dropWhile]
  · exact fun c hc => List.mem_takeWhile_imp hc
  · exact fun c hc => List.mem_takeWhile_imp (List.mem_reverse.1 hc)

theorem strip_sublist (cs : List Char) : (strip cs).Sublist cs := by
  obtain ⟨lead, trail, hcs, -, -⟩ := exists_strip cs
  have hstrip : (strip cs).Sublist (lead ++ (strip cs ++ trail)) :=
    (List.sublist_append_left _ trail).trans (List.sublist_append_right lead _)
  rwa [← hcs] at hstrip

end Appraisal.Text
