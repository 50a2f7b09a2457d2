import Appraisal.Proofs.Value.Quoted
import Appraisal.Text.Encoding

/-! The units of a text, and the text again. As numbers of any size the units of a character are its code point or its two
    surrogates; all of them fit in 16 bits, so none is cut off (`map_toNat_units`). Joining the surrogates gives the
    text back (`joinSurrogates_units`), so different texts have different units (`units_injective`). -/

namespace Appraisal.Text
open Value Value.Reader

/-- The units of a character as numbers of any size. -/
def unitNumbers (c : Char) : List Nat :=
  if c.toNat < 0x10000 then [c.toNat]
  else [0xD800 + (c.toNat - 0x10000) / 0x400, 0xDC00 + (c.toNat - 0x10000) % 0x400]

theorem unitNumbers_of_lt {c : Char} (h : c.toNat < 0x10000) : unitNumbers c = [c.toNat] := if_pos h

/-- A character above the 16-bit ones has a high and a low surrogate, which give its code point back. -/
theorem exists_surrogates {c : Char} (h : ¬ c.toNat < 0x10000) : ∃ n m, unitNumbers c = [n, m] ∧
    isHighSurrogate n = true ∧ isLowSurrogate m = true ∧ 0x10000 + (n - 0xD800) * 0x400 + (m - 0xDC00) = c.toNat := by
  have hvalid : c.toNat < 0xD800 ∨ 0xDFFF < c.toNat ∧ c.toNat < 0x110000 := c.valid
  refine ⟨_, _, if_neg h, ?_, ?_, ?_⟩
  · simp only [isHighSurrogate, Bool.and_eq_true, decide_eq_true_eq]
    omega
  · simp only [isLowSurrogate, Bool.and_eq_true, decide_eq_true_eq]
    omega
  · omega

theorem lt_of_mem_unitNumbers {c : Char} {n : Nat} (h : n ∈ unitNumbers c) : n < 0x10000 := by
  by_cases hc : c.toNat < 0x10000
  · rw [unitNumbers_of_lt hc, List.mem_singleton] at h
    omega
  · obtain ⟨high, low, hunits, hhigh, hlow, -⟩ := exists_surrogates hc
    simp only [isHighSurrogate, isLowSurrogate, Bool.and_eq_true, decide_eq_true_eq] at hhigh hlow
    simp only [hunits, List.mem_cons, List.not_mem_nil, or_false] at h
    omega

/-! ### Sixteen bits -/

theorem charUnits_eq_map (c : Char) : charUnits c = (unitNumbers c).map UInt16.ofNat := by
  unfold charUnits unitNumbers
  split <;> rfl

theorem charUnits_of_lt {c : Char} (h : c.toNat < 0x10000) : charUnits c = [UInt16.ofNat c.toNat] := if_pos h

theorem map_toNat_charUnits (c : Char) : (charUnits c).map UInt16.toNat = unitNumbers c := by
  have hkept : ∀ n ∈ unitNumbers c, (UInt16.toNat ∘ UInt16.ofNat) n = id n := by
    intro n hn
    rw [Function.comp_apply, UInt16.toNat_ofNat', Nat.mod_eq_of_lt (lt_of_mem_unitNumbers hn), id]
  rw [charUnits_eq_map, List.map_map, List.map_congr_left hkept, List.map_id]

/-- No unit of a text is cut off. -/
theorem map_toNat_units (cs : List Char) : (units cs).map UInt16.toNat = cs.flatMap unitNumbers := by
  simp only [units, List.map_flatMap, map_toNat_charUnits]

theorem lt_of_mem_flatMap_unitNumbers {cs : List Char} {n : Nat} (h : n ∈ cs.flatMap unitNumbers) : n < 0x10000 := by
  obtain ⟨c, -, hc⟩ := List.mem_flatMap.1 h
  exact lt_of_mem_unitNumbers hc

/-! ### Back to characters -/

theorem joinSurrogates_unitNumbers (c : Char) (rest : List Nat) :
    joinSurrogates (unitNumbers c ++ rest) = c :: joinSurrogates rest := by
  by_cases hc : c.toNat < 0x10000
  · rw [unitNumbers_of_lt hc, List.singleton_append, joinSurrogates_cons_toNat]
  · obtain ⟨high, low, hunits, hhigh, hlow, hcode⟩ := exists_surrogates hc
    rw [hunits, List.cons_append, List.singleton_append, joinSurrogates, hhigh, hlow, hcode, Char.ofNat_toNat]
    rfl

/-- The text is what its units are read as. -/
theorem joinSurrogates_units (cs : List Char) : joinSurrogates ((units cs).map UInt16.toNat) = cs := by
  rw [map_toNat_units]
  induction cs with
  | nil => rfl
  | cons c cs ih => rw [List.flatMap_cons, joinSurrogates_unitNumbers, ih]

theorem units_injective : Function.Injective units := by
  intro a b h
  rw [← joinSurrogates_units a, h, joinSurrogates_units b]

end Appraisal.Text
