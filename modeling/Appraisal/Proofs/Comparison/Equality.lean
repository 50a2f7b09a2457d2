import Appraisal.Proofs.Comparison.Laws
import Appraisal.Proofs.Value.Canonical

/-! Equality of values. Apart from `nan` and numbers with a fractional part, values of a field are equal exactly if they
    have the same text, whatever regime they are compared in (`equality_of_texts`). The place of a value on a scale
    depends on its text only; and the place of a whole number and its text tell each other (`Spells.eq_iff`). -/

namespace Appraisal

namespace Number
open Binary64

theorem intText_injective : Function.Injective intText := by
  intro m n h
  exact (tell_intText m n [] [] Text.stops_nil Text.stops_nil (by rw [h])).1

theorem intText_ne {n : Int} {text : List Char} (h : ∃ c ∈ text, 0x41 ≤ c.toNat) : intText n ≠ text := by
  rintro rfl
  obtain ⟨c, hc, hletter⟩ := h
  exact absurd (toNat_lt_of_mem_intText hc) (Nat.not_lt.2 hletter)

/-- What a whole number in this place is compared as; the infinities count as whole. -/
inductive Spells : Place → String → Prop
  | bottom : Spells .bottom "-inf"
  | int (n : Int) : Spells (.steps (n * one)) (String.ofList (intText n))
  | top : Spells .top "inf"

theorem Spells.eq_iff {p q : Place} {s t : String} (hp : Spells p s) (hq : Spells q t) : p = q ↔ s = t := by
  have hends : ¬ "-inf" = "inf" := by decide
  have hbottom : ∀ n, ¬ String.ofList (intText n) = "-inf" := fun n h =>
    intText_ne ⟨'i', by decide, by decide⟩ (String.ofList_injective h)
  have htop : ∀ n, ¬ String.ofList (intText n) = "inf" := fun n h =>
    intText_ne ⟨'i', by decide, by decide⟩ (String.ofList_injective h)
  cases hp with
  | bottom =>
    cases hq with
    | bottom => exact iff_of_true rfl rfl
    | int n => exact iff_of_false nofun fun h => hbottom n h.symm
    | top => exact iff_of_false nofun hends
  | int m =>
    cases hq with
    | bottom => exact iff_of_false nofun (hbottom m)
    | int n =>
      have hone : (one : Int) ≠ 0 := by exact_mod_cast one_pos.ne'
      rw [Place.steps.injEq, Int.mul_eq_mul_right_iff hone, String.ofList_inj, intText_injective.eq_iff]
    | top => exact iff_of_false nofun (htop m)
  | top =>
    cases hq with
    | bottom => exact iff_of_false nofun (Ne.symm hends)
    | int n => exact iff_of_false nofun fun h => htop n h.symm
    | top => exact iff_of_true rfl rfl

end Number

namespace Value
open Number Binary64

/-- The value is neither `nan` nor a number with a fractional part. -/
def Whole : Value → Prop
  | .number (.real (.finite _ steps)) => one ∣ steps
  | .number (.real .nan) => False
  | _ => True

theorem Whole.spells {a : Number} (h : (Value.number a).Whole) :
    ∃ p, a.place? = some p ∧ Spells p (Value.number a).comparisonText := by
  have hint : ∀ n : Int, a.place? = some (.steps (n * one)) →
      ∃ p, a.place? = some p ∧ Spells p (Value.number a).comparisonText := by
    intro n hplace
    rw [comparisonText_of_whole hplace]
    exact ⟨_, hplace, .int n⟩
  cases a with
  | int n => exact hint n rfl
  | real x =>
    cases x with
    | finite negative steps =>
      obtain ⟨k, hsteps⟩ : one ∣ steps := h
      refine hint (signed negative k) ?_
      rw [place?, hsteps, Nat.mul_comm, signed_mul_one]
    | infinite negative =>
      cases negative with
      | false =>
        have htext : (Value.number (.real (.infinite false))).comparisonText = "inf" := by decide +kernel
        exact ⟨.top, by rfl, htext ▸ .top⟩
      | true =>
        have htext : (Value.number (.real (.infinite true))).comparisonText = "-inf" := by decide +kernel
        exact ⟨.bottom, by rfl, htext ▸ .bottom⟩
    | nan => exact h.elim

theorem equal_numbers_iff {a b : Number} (ha : (Value.number a).Whole) (hb : (Value.number b).Whole) :
    a.compare? b = some .eq ↔ (Value.number a).comparisonText = (Value.number b).comparisonText := by
  obtain ⟨p, hp, hspells⟩ := ha.spells
  obtain ⟨q, hq, hspells'⟩ := hb.spells
  rw [← hspells.eq_iff hspells', compare?_eq_eq_iff, hp, hq]
  constructor
  · rintro ⟨_, ⟨⟩, ⟨⟩⟩
    rfl
  · rintro rfl
    exact ⟨p, rfl, rfl⟩

theorem compareAlone_eq_iff {l x : Value} (hl : l.Whole) (hx : x.Whole) :
    compareAlone .eq l x = true ↔ l.comparisonText = x.comparisonText := by
  cases l with
  | number a =>
    cases x with
    | number b =>
      rw [← equal_numbers_iff hl hx, compareAlone]
      cases h : a.compare? b with
      | none => simp [Operator.unordered]
      | some o => cases o <;> simp [Operator.holds]
    | _ => simp only [compareAlone, Operator.unordered, decide_eq_true_iff]
  | _ => simp only [compareAlone, Operator.unordered, decide_eq_true_iff]

end Value

namespace Ruleset
variable {r : Ruleset} {field : String} {l x : Value} {i j : Nat}

theorem AtPlace.eq_iff (hl : r.AtPlace field l i) (hx : r.AtPlace field x j) :
    i = j ↔ l.comparisonText = x.comparisonText := by
  constructor
  · rintro rfl
    obtain ⟨levels, hscale, hlevel, -⟩ := hl
    obtain ⟨levels', hscale', hlevel', -⟩ := hx
    obtain rfl : levels = levels' := Option.some.inj (hscale.symm.trans hscale')
    exact Option.some.inj (hlevel.symm.trans hlevel')
  · -- The place depends on the text only.
    intro h
    rw [← ordinal?_eq_some_iff, ordinal?_eq_of_text h] at hl
    rw [← ordinal?_eq_some_iff] at hx
    exact Option.some.inj (hl.symm.trans hx)

theorem compare_eq_iff_text (hl : l.Whole) (hx : x.Whole) :
    r.compare field .eq l x = true ↔ l.comparisonText = x.comparisonText := by
  by_cases h : r.BothOnScale field l x
  · obtain ⟨⟨i, hi⟩, j, hj⟩ := h
    rw [compare_iff_places hi hj, ← hi.eq_iff hj]
    rfl
  · rw [compare_of_apart h, Value.compareAlone_eq_iff hl hx]

/-- Equality on a field is equality of texts, so it is an equivalence relation. -/
theorem equality_of_texts (r : Ruleset) (field : String) :
    (∀ l x : Value, l.Whole → x.Whole → (r.compare field .eq l x = true ↔ l.comparisonText = x.comparisonText)) ∧
    Equivalence fun l x : {v : Value // v.Whole} => r.compare field .eq l x = true := by
  refine ⟨fun l x => compare_eq_iff_text, ?_⟩
  have htext : ∀ l x : {v : Value // v.Whole}, r.compare field .eq l x = true ↔
      l.1.comparisonText = x.1.comparisonText := fun l x => compare_eq_iff_text l.2 x.2
  simp only [htext]
  exact InvImage.equivalence _ _ eq_equivalence

/-- An integer, a floating point number and a text, on a scale that has the number three. -/
theorem equality_of_texts_graded :
    let three : Value := .number (.real (.finite false (3 * Binary64.one)))
    graded.compare "Grade" .eq (.int 3) three = true ∧ graded.compare "Grade" .eq three (.text "3") = true ∧
    graded.compare "Grade" .eq (.int 3) (.text "3") = true := by
  intro three
  have hint : (Value.int 3).Whole := trivial
  have hthree : three.Whole := Nat.dvd_mul_left Binary64.one 3
  have htext : (Value.text "3").Whole := trivial
  obtain ⟨hequal, -, -, htrans⟩ := equality_of_texts graded "Grade"
  have hleft : graded.compare "Grade" .eq (.int 3) three = true := (hequal _ _ hint hthree).2 (by decide +kernel)
  have hright : graded.compare "Grade" .eq three (.text "3") = true := (hequal _ _ hthree htext).2 (by decide +kernel)
  exact ⟨hleft, hright, @htrans ⟨_, hint⟩ ⟨_, hthree⟩ ⟨_, htext⟩ hleft hright⟩

end Ruleset
end Appraisal
