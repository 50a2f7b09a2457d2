import Appraisal.Matching
import Appraisal.Proofs.Number.Order

/-! Comparing values. Equal values compare alike with every other, also where an integer is equal to a floating point
    number (`compare_eq_of_equals`): where values are compared as texts, whole numbers are written like integers
    (`comparisonText_eq_of_place`). -/

namespace Appraisal

namespace Value
open Number Binary64

/-- The same value, or numbers of the same size. -/
inductive Equals : Value → Value → Prop
  | refl (v : Value) : Equals v v
  | numbers {a b : Number} (h : a.compare? b = some .eq) : Equals (.number a) (.number b)

/-- A number in the place of an integer is compared by the digits of this integer. -/
theorem comparisonText_of_whole {a : Number} {n : Int} (h : a.place? = some (.steps (n * one))) :
    (Value.number a).comparisonText = String.ofList (intText n) := by
  cases a with
  | int m =>
    have hmul : m * one = n * one := Place.steps.inj (Option.some.inj h)
    have hone : (one : Int) ≠ 0 := by exact_mod_cast one_pos.ne'
    rw [Int.eq_of_mul_eq_mul_right hone hmul]
    change lowerText (String.ofList (intText n)) = _
    rw [lowerText, String.toList_ofList, lower_intText]
  | real x => simp only [comparisonText, toInt?_of_place h]

/-- Numbers in the same place are compared by the same text. -/
theorem comparisonText_eq_of_place {a b : Number} {p : Place} (ha : a.place? = some p) (hb : b.place? = some p) :
    (Value.number a).comparisonText = (Value.number b).comparisonText := by
  by_cases hwhole : ∃ n : Int, p = .steps (n * one)
  · obtain ⟨n, rfl⟩ := hwhole
    rw [comparisonText_of_whole ha, comparisonText_of_whole hb]
  · -- No integer has this place, and zero is one.
    have hzero : p ≠ .steps 0 := fun h => hwhole ⟨0, by rw [h, Int.zero_mul]⟩
    cases a with
    | int m => exact absurd ⟨m, (Option.some.inj ha).symm⟩ hwhole
    | real x =>
      cases b with
      | int m => exact absurd ⟨m, (Option.some.inj hb).symm⟩ hwhole
      | real y => rw [real_eq_of_place ha hb hzero]

end Value

namespace Ruleset
variable {r : Ruleset} {v w : Value}

theorem ordinal?_eq_of_text (h : v.comparisonText = w.comparisonText) (field : String) :
    r.ordinal? field v = r.ordinal? field w := by
  rw [ordinal?, ordinal?, h]

theorem compare_eq_of_equals (h : v.Equals w) (field : String) (op : Operator) (right : Value) :
    r.compare field op v right = r.compare field op w right := by
  cases h with
  | refl => rfl
  | @numbers a b h =>
    obtain ⟨p, ha, hb⟩ := Number.compare?_eq_eq_iff.1 h
    have htext := Value.comparisonText_eq_of_place ha hb
    have hcompare := Number.compare?_congr (ha.trans hb.symm)
    unfold compare
    rw [ordinal?_eq_of_text htext]
    cases right with
    | number c => simp only [hcompare c]
    | _ => simp only [htext]

end Ruleset
end Appraisal
