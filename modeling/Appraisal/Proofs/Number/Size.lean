import Appraisal.Proofs.Number.Order
import Mathlib.Algebra.Order.Field.Rat
import Mathlib.Algebra.Order.Ring.Cast
import Mathlib.Order.Compare
import Mathlib.Order.WithBot

/-! The sizes of numbers. A number is a rational, or lies beyond all of them on one side, or is `nan` and has no size.
    Numbers are compared by their sizes, integers with floating point numbers too (`compare?_of_sizes`). -/

namespace Appraisal.Number
open Binary64

/-- The size of a number, exactly. The infinities lie beyond all rationals, and `nan` has no size. -/
def size? : Number → Option (WithBot (WithTop ℚ))
  | .int n => some ((n : ℚ) : WithTop ℚ)
  | .real (.finite negative steps) => some (((signed negative steps : ℚ) / one : ℚ) : WithTop ℚ)
  | .real (.infinite negative) => some (if negative then ⊥ else (⊤ : WithTop ℚ))
  | .real .nan => none

def Place.size : Place → WithBot (WithTop ℚ)
  | .bottom => ⊥
  | .steps n => (((n : ℚ) / one : ℚ) : WithTop ℚ)
  | .top => (⊤ : WithTop ℚ)

theorem one_pos_rat : (0 : ℚ) < one := by exact_mod_cast one_pos

theorem size?_eq (a : Number) : a.size? = a.place?.map Place.size := by
  cases a with
  | int n =>
    have hone : (n : ℚ) = ((n * one : Int) : ℚ) / one := by
      rw [Int.cast_mul, Int.cast_natCast, mul_div_cancel_right₀ _ one_pos_rat.ne']
    rw [size?, place?, Option.map_some, Place.size, ← hone]
  | real x =>
    cases x with
    | finite negative steps => rfl
    | infinite negative => cases negative <;> rfl
    | nan => rfl

theorem signed_mul_one (negative : Bool) (k : Nat) : signed negative (k * one) = signed negative k * one := by
  cases negative with
  | false => rw [signed, signed, if_neg Bool.false_ne_true, if_neg Bool.false_ne_true, Int.natCast_mul]
  | true => rw [signed, signed, if_pos rfl, if_pos rfl, Int.natCast_mul, Int.neg_mul]

/-- A floating point number that is whole has the size of the integer. -/
theorem size?_whole (negative : Bool) (k : Nat) :
    (real (.finite negative (k * one))).size? = (int (signed negative k)).size? := by
  rw [size?_eq, size?_eq, place?, place?, signed_mul_one]

theorem size_steps_lt {m n : Int} (h : m < n) : Place.size (.steps m) < Place.size (.steps n) := by
  refine WithBot.coe_strictMono (WithTop.coe_strictMono ?_)
  exact div_lt_div_of_pos_right (Int.cast_lt.2 h) one_pos_rat

theorem compare_eq_cmp_size (p q : Place) : p.compare q = cmp p.size q.size := by
  have hbelow : ∀ n, Place.size .bottom < Place.size (.steps n) := fun n => WithBot.bot_lt_coe _
  have habove : ∀ n, Place.size (.steps n) < Place.size .top := fun n =>
    WithBot.coe_strictMono (WithTop.coe_lt_top _)
  have hends : Place.size .bottom < Place.size .top := WithBot.bot_lt_coe _
  cases p with
  | bottom =>
    cases q with
    | bottom => exact ((cmp_eq_eq_iff _ _).2 rfl).symm
    | steps n => exact ((cmp_eq_lt_iff _ _).2 (hbelow n)).symm
    | top => exact ((cmp_eq_lt_iff _ _).2 hends).symm
  | steps m =>
    cases q with
    | bottom => exact ((cmp_eq_gt_iff _ _).2 (hbelow m)).symm
    | steps n =>
      have hsteps : StrictMono fun n : Int => Place.size (.steps n) := fun _ _ => size_steps_lt
      exact ((hsteps.cmp_map_eq m n).trans (cmp_eq_compare m n)).symm
    | top => exact ((cmp_eq_lt_iff _ _).2 (habove m)).symm
  | top =>
    cases q with
    | bottom => exact ((cmp_eq_gt_iff _ _).2 hends).symm
    | steps n => exact ((cmp_eq_gt_iff _ _).2 (habove n)).symm
    | top => exact ((cmp_eq_eq_iff _ _).2 rfl).symm

theorem compare?_of_sizes {a b : Number} {x y : WithBot (WithTop ℚ)} (ha : a.size? = some x) (hb : b.size? = some y) :
    a.compare? b = some (cmp x y) := by
  rw [size?_eq, Option.map_eq_some_iff] at ha hb
  obtain ⟨p, hp, rfl⟩ := ha
  obtain ⟨q, hq, rfl⟩ := hb
  rw [compare?, hp, hq, ← compare_eq_cmp_size]
  rfl

theorem compare?_eq_none_of_unsized {a b : Number} (h : a.size? = none ∨ b.size? = none) : a.compare? b = none := by
  simp only [size?_eq, Option.map_eq_none_iff] at h
  unfold compare?
  rcases h with h | h
  · rw [h]
    rfl
  · rw [h]
    cases a.place? <;> rfl

end Appraisal.Number
