import Appraisal.Proofs.Number.Plain
import Appraisal.Proofs.Text.Case

/-! The order of numbers. Two numbers are equal if they have the same place on the number line (`compare?_eq_eq_iff`),
    and then have the same order to every other number. A floating point number in the place of an integer is that
    integer (`toInt?_of_place`), and any other place is that of one floating point number only. -/

namespace Appraisal

namespace Number
open Binary64

theorem one_pos : 0 < one := by decide +kernel

theorem Place.compare_eq_eq_iff {p q : Place} : p.compare q = .eq ↔ p = q := by
  cases p <;> cases q <;> simp [Place.compare]

theorem compare?_eq_eq_iff {a b : Number} :
    a.compare? b = some .eq ↔ ∃ p, a.place? = some p ∧ b.place? = some p := by
  cases ha : a.place? <;> cases hb : b.place? <;> simp [compare?, ha, hb, Place.compare_eq_eq_iff]
  exact eq_comm

theorem compare?_congr {a b : Number} (h : a.place? = b.place?) (c : Number) : a.compare? c = b.compare? c := by
  rw [compare?, compare?, h]

/-! ### Whole numbers -/

theorem exists_nat_of_mul_one {n : Int} {steps : Nat} (h : (steps : Int) = n * one) :
    ∃ k : Nat, n = k ∧ steps = k * one := by
  have hone : (0 : Int) < one := by exact_mod_cast one_pos
  have hn : 0 ≤ n := by
    by_contra hneg
    have := Int.mul_neg_of_neg_of_pos (Int.not_le.1 hneg) hone
    omega
  obtain ⟨k, rfl⟩ := Int.eq_ofNat_of_zero_le hn
  exact ⟨k, rfl, by exact_mod_cast h⟩

theorem toInt?_finite (negative : Bool) (k : Nat) : (finite negative (k * one)).toInt? = some (signed negative k) := by
  rw [toInt?, if_pos (Nat.mul_mod_left k one), Nat.mul_div_cancel k one_pos]

/-- A floating point number in the place of an integer is this integer. -/
theorem toInt?_of_place {x : Binary64} {n : Int} (h : (real x).place? = some (.steps (n * one))) :
    x.toInt? = some n := by
  cases x with
  | finite negative steps =>
    have hsteps : signed negative steps = n * one := Place.steps.inj (Option.some.inj h)
    cases negative with
    | false =>
      obtain ⟨k, hn, hk⟩ := exists_nat_of_mul_one hsteps
      rw [hk, toInt?_finite, hn]
      rfl
    | true =>
      have hneg : (steps : Int) = -n * one := by
        rw [Int.neg_mul, ← hsteps, signed, if_pos rfl, Int.neg_neg]
      obtain ⟨k, hn, hk⟩ := exists_nat_of_mul_one hneg
      rw [hk, toInt?_finite, signed, if_pos rfl, ← hn, Int.neg_neg]
  | infinite negative => cases negative <;> cases h
  | nan => cases h

theorem signed_inj {negative negative' : Bool} {steps steps' : Nat}
    (h : signed negative steps = signed negative' steps') (hne : signed negative steps ≠ 0) :
    negative = negative' ∧ steps = steps' := by
  cases negative <;> cases negative' <;> simp [signed] at h hne ⊢ <;> omega

/-- Floating point numbers in the same place are the same, unless they are the two zeros. -/
theorem real_eq_of_place {x y : Binary64} {p : Place} (hx : (real x).place? = some p) (hy : (real y).place? = some p)
    (hzero : p ≠ .steps 0) : x = y := by
  have h := hx.trans hy.symm
  rcases x with ⟨negative, steps⟩ | negative | _ <;> rcases y with ⟨negative', steps'⟩ | negative' | _
  · obtain rfl := Option.some.inj hx
    have hsteps : signed negative' steps' = signed negative steps := Place.steps.inj (Option.some.inj hy)
    obtain ⟨rfl, rfl⟩ := signed_inj hsteps.symm fun h => hzero (congrArg Place.steps h)
    rfl
  all_goals (try cases negative) <;> (try cases negative') <;> simp [place?] at h ⊢

/-! ### Numerals of integers -/

theorem toNat_lt_of_mem_intText {n : Int} {c : Char} (h : c ∈ intText n) : c.toNat < 0x41 := by
  rw [← Numeral.chars_ofInt] at h
  rcases (Numeral.Plain.ofInt n).mem_chars h with hd | rfl | rfl
  · have hlast : c.toNat ≤ '9'.toNat := (Char.isDigit_iff_toNat.1 hd).2
    exact Nat.lt_of_le_of_lt hlast (by decide)
  · decide
  · decide

/-- Numerals have no letters. -/
theorem lower_intText (n : Int) : Text.Case.lower (intText n) = intText n :=
  Text.Case.lowerFrom_eq_self (fun _ => toNat_lt_of_mem_intText) false

end Number
end Appraisal
