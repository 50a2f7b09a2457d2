import Appraisal.Text.Case

/-! Lower case of what is in lower case. No shift of the table leads to a code point at which another begins
    (`apart_of_mem_shifts`), so the lower case of a character is its own lower case, and putting a text in lower case again
    changes nothing (`lower_lower`). What stands before the capital letters in the order of characters, such as the
    digits and the signs of numerals, is in lower case (`lowerFrom_eq_self`). -/

namespace Appraisal.Text.Case

/-! ### Shifts -/

/-- The code points to which a shift leads, from the first to the last. -/
def Shift.target (s : Shift) : Span := ⟨(s.first + s.shift).toNat, (s.last + s.shift).toNat⟩

/-- The code points to which `s` leads are none at which `t` begins: the two spans do not meet, or in one only the even
    code points are meant and in the other only the odd ones. -/
def Shift.apart (s t : Shift) : Bool :=
  s.target.last.blt t.first || t.last.blt s.target.first ||
    (s.stride == 2 || s.first == s.last) && t.stride == 2 && s.target.first % 2 != t.first % 2

theorem apart_of_mem_shifts : shifts.all (fun s => shifts.all s.apart) = true := by decide +kernel

theorem target_of_mem_shifts : ∀ s ∈ shifts, 0 ≤ s.first + s.shift ∧
    (s.target.last < 0xD800 ∨ 0xDFFF < s.target.first ∧ s.target.last < 0x110000) := by decide +kernel

theorem first_of_mem_shifts : ∀ s ∈ shifts, 0x41 ≤ s.first := by decide +kernel

theorem Shift.covers_iff {s : Shift} {n : Nat} :
    s.covers n = true ↔ s.first ≤ n ∧ n ≤ s.last ∧ (n - s.first) % s.stride = 0 := by
  simp [covers, and_assoc]

theorem Shift.apart_iff {s t : Shift} : s.apart t = true ↔ s.target.last < t.first ∨ t.last < s.target.first ∨
    (s.stride = 2 ∨ s.first = s.last) ∧ t.stride = 2 ∧ s.target.first % 2 ≠ t.first % 2 := by
  simp [apart, or_assoc, and_assoc]

theorem Shift.not_covers_of_apart {s t : Shift} {m n : Nat} (h : s.apart t = true) (hm : s.covers m = true)
    (hpositive : 0 ≤ s.first + s.shift) (hn : (n : Int) = m + s.shift) : ¬ t.covers n = true := by
  intro ht
  obtain ⟨hfirst, hlast, hm⟩ := covers_iff.1 hm
  obtain ⟨tfirst, tlast, ht⟩ := covers_iff.1 ht
  rw [apart_iff, target] at h
  rcases h with h | h | ⟨hs, hstride, hparity⟩
  · dsimp only at h
    omega
  · dsimp only at h
    omega
  · dsimp only at hparity
    rw [hstride] at ht
    rcases hs with hs | hs
    · rw [hs] at hm
      omega
    · omega

/-! ### Characters -/

variable {c d : Char}

theorem lowerChar_of_not_covered (h : ∀ s ∈ shifts, ¬ s.covers c.toNat = true) : lowerChar c = c := by
  rw [lowerChar, List.find?_eq_none.2 h]

theorem exists_shift_of_lowerChar_ne (h : lowerChar c ≠ c) :
    ∃ s ∈ shifts, s.covers c.toNat = true ∧ ((lowerChar c).toNat : Int) = c.toNat + s.shift := by
  unfold lowerChar at h ⊢
  split at h
  · rename_i s hs
    have hmem := List.mem_of_find?_eq_some hs
    have hcovers := List.find?_some hs
    obtain ⟨hfirst, hlast, -⟩ := Shift.covers_iff.1 hcovers
    obtain ⟨hpositive, htarget⟩ := target_of_mem_shifts s hmem
    simp only [Shift.target] at htarget
    have hvalid : (c.toNat + s.shift).toNat.isValidChar := by
      unfold Nat.isValidChar
      omega
    have hchar : (Char.ofNat (c.toNat + s.shift).toNat).toNat = (c.toNat + s.shift).toNat :=
      congrArg Char.toNat (dif_pos hvalid)
    refine ⟨s, hmem, hcovers, ?_⟩
    rw [hchar]
    omega
  · exact absurd rfl h

theorem lowerChar_lowerChar (c : Char) : lowerChar (lowerChar c) = lowerChar c := by
  by_cases h : lowerChar c = c
  · rw [h, h]
  · obtain ⟨s, hs, hcovers, hshift⟩ := exists_shift_of_lowerChar_ne h
    refine lowerChar_of_not_covered fun t ht => ?_
    have hapart := List.all_eq_true.1 (List.all_eq_true.1 apart_of_mem_shifts s hs) t ht
    exact Shift.not_covers_of_apart hapart hcovers (target_of_mem_shifts s hs).1 hshift

/-- A character to which no shift leads is the lower case of no other. -/
theorem eq_of_lowerChar_eq (hd : ∀ s ∈ shifts, ¬ s.covers ((d.toNat : Int) - s.shift).toNat = true)
    (h : lowerChar c = d) : c = d := by
  by_cases hc : lowerChar c = c
  · exact hc.symm.trans h
  · obtain ⟨s, hs, hcovers, hshift⟩ := exists_shift_of_lowerChar_ne hc
    have hsource : ((d.toNat : Int) - s.shift).toNat = c.toNat := by
      rw [h] at hshift
      omega
    exact absurd (hsource ▸ hcovers) (hd s hs)

theorem lowerChar_eq_self (h : c.toNat < 0x41) : lowerChar c = c :=
  lowerChar_of_not_covered fun s hs hcovers => by
    have hfirst := first_of_mem_shifts s hs
    have hcovered := (Shift.covers_iff.1 hcovers).1
    omega

/-! ### Texts -/

/-- The character is its own lower case wherever it stands. -/
structure IsLower (c : Char) : Prop where
  ne_sigma : c ≠ capitalSigma
  ne_dotted : c ≠ 'İ'
  eq_self : lowerChar c = c

theorem IsLower.lowerAt_eq (h : IsLower c) (after : Bool) (rest : List Char) : lowerAt after c rest = [c] := by
  rw [lowerAt, if_neg h.ne_sigma, if_neg h.ne_dotted, h.eq_self]

theorem lowerFrom_of_isLower {cs : List Char} (h : ∀ c ∈ cs, IsLower c) (after : Bool) : lowerFrom after cs = cs := by
  induction cs generalizing after with
  | nil => rfl
  | cons c cs ih =>
    obtain ⟨hc, hcs⟩ := List.forall_mem_cons.1 h
    rw [lowerFrom, hc.lowerAt_eq, ih hcs, List.singleton_append]

theorem isLower_of_lt (h : c.toNat < 0x41) : IsLower c where
  ne_sigma := by
    rintro rfl
    exact absurd h (by decide)
  ne_dotted := by
    rintro rfl
    exact absurd h (by decide)
  eq_self := lowerChar_eq_self h

theorem lowerFrom_eq_self {cs : List Char} (h : ∀ c ∈ cs, c.toNat < 0x41) (after : Bool) :
    lowerFrom after cs = cs :=
  lowerFrom_of_isLower (fun c hc => isLower_of_lt (h c hc)) after

theorem isLower_lowerChar (h : c ≠ 'İ') : IsLower (lowerChar c) where
  ne_sigma := by
    intro hsigma
    have hlower := lowerChar_lowerChar c
    rw [hsigma] at hlower
    exact absurd hlower (by decide +kernel)
  ne_dotted := fun hdotted => h (eq_of_lowerChar_eq (by decide +kernel) hdotted)
  eq_self := lowerChar_lowerChar c

theorem isLower_of_mem_lowerAt {after : Bool} {rest : List Char} (h : d ∈ lowerAt after c rest) : IsLower d := by
  have small : IsLower smallSigma := ⟨by decide, by decide, by decide +kernel⟩
  have final : IsLower finalSigma := ⟨by decide, by decide, by decide +kernel⟩
  have i : IsLower 'i' := ⟨by decide, by decide, by decide +kernel⟩
  have dot : IsLower '\u0307' := ⟨by decide, by decide, by decide +kernel⟩
  unfold lowerAt at h
  split at h
  · split at h <;> rw [List.mem_singleton] at h <;> subst h
    · exact final
    · exact small
  split at h
  · simp only [List.mem_cons, List.not_mem_nil, or_false] at h
    rcases h with rfl | rfl
    · exact i
    · exact dot
  · rename_i hdotted
    rw [List.mem_singleton] at h
    exact h ▸ isLower_lowerChar hdotted

theorem isLower_of_mem_lowerFrom {after : Bool} {cs : List Char} (h : d ∈ lowerFrom after cs) : IsLower d := by
  induction cs generalizing after with
  | nil => cases h
  | cons c cs ih =>
    rw [lowerFrom, List.mem_append] at h
    rcases h with h | h
    · exact isLower_of_mem_lowerAt h
    · exact ih h

theorem isLower_of_mem_lower {cs : List Char} (h : d ∈ lower cs) : IsLower d := isLower_of_mem_lowerFrom h

/-- Texts of characters that are their own lower case, such as all those that are put in lower case, are left as they
    are. -/
theorem lower_of_isLower {cs : List Char} (h : ∀ c ∈ cs, IsLower c) : lower cs = cs := lowerFrom_of_isLower h false

theorem lower_lower (cs : List Char) : lower (lower cs) = lower cs :=
  lower_of_isLower fun _ => isLower_of_mem_lower

end Appraisal.Text.Case
