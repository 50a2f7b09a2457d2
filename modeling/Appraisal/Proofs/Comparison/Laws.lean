import Appraisal.Proofs.Comparison
import Appraisal.Proofs.Number.Size
import Appraisal.Proofs.Ruleset.Operator

/-! The laws of comparing two values of a field. There are three regimes: both values are on the scale of the field, or
    both are numbers with a size, or neither is the case (`regime`). In the first two an operator holds exactly if it
    holds of the places or of the sizes; in the third there is no order, only equal and different. The laws of the six
    operators follow regime by regime (`comparisons_lawful`). -/

namespace Appraisal

namespace Value

/-- The size of a value, if it is a number and not `nan`. -/
def size? : Value → Option (WithBot (WithTop ℚ))
  | .number a => a.size?
  | _ => none

/-- What an operator says of two values without a scale: numbers are compared by their sizes, others by their texts. -/
def compareAlone (op : Operator) : Value → Value → Bool
  | .number m, .number n => (m.compare? n).elim (op.unordered false) op.holds
  | l, x => op.unordered (l.comparisonText = x.comparisonText)

/-- The values have the same text and are not both numbers. -/
def sameText (l x : Value) : Bool := !(l.isNumber && x.isNumber) && l.comparisonText = x.comparisonText

theorem sameText_comm (l x : Value) : l.sameText x = x.sameText l := by
  simp only [sameText, Bool.and_comm, eq_comm]

end Value

namespace Ruleset
variable {r : Ruleset} {field : String} {l x : Value} {i j : Nat} {a b : WithBot (WithTop ℚ)}

/-! ### Places on a scale -/

/-- The value is on the scale of the field: `i` is the first place of a level that has the text of the value in lower
    case. -/
def AtPlace (r : Ruleset) (field : String) (v : Value) (i : Nat) : Prop :=
  ∃ levels, r.scales.get? field = some levels ∧ (levels.map lowerText)[i]? = some v.comparisonText ∧
    ∀ j < i, (levels.map lowerText)[j]? ≠ some v.comparisonText

def OnScale (r : Ruleset) (field : String) (v : Value) : Prop := ∃ i, r.AtPlace field v i

def BothOnScale (r : Ruleset) (field : String) (l x : Value) : Prop := r.OnScale field l ∧ r.OnScale field x

theorem bothOnScale_comm : r.BothOnScale field l x ↔ r.BothOnScale field x l := and_comm

theorem ordinal?_eq_some_iff : r.ordinal? field l = some i ↔ r.AtPlace field l i := by
  have hindex : ∀ levels : List String, levels.idxOf? l.comparisonText = some i ↔
      levels[i]? = some l.comparisonText ∧ ∀ j < i, levels[j]? ≠ some l.comparisonText := by
    intro levels
    rw [List.idxOf?_eq_some_iff, List.getElem?_eq_some_iff]
    constructor
    · rintro ⟨hi, heq, hbefore⟩
      refine ⟨⟨hi, heq⟩, fun j hj heq' => hbefore j hj ?_⟩
      exact (List.getElem?_eq_some_iff.1 heq').2
    · rintro ⟨⟨hi, heq⟩, hbefore⟩
      exact ⟨hi, heq, fun j hj heq' => hbefore j hj (List.getElem?_eq_some_iff.2 ⟨_, heq'⟩)⟩
  unfold ordinal? scale? AtPlace
  cases r.scales.get? field with
  | none => simp
  | some levels =>
    cases levels with
    | nil => simp
    | cons level levels => simp only [hindex, Option.some.injEq, exists_eq_left']

theorem ordinal?_eq_none_iff : r.ordinal? field l = none ↔ ¬ r.OnScale field l := by
  simp only [Option.eq_none_iff_forall_ne_some, OnScale, ← ordinal?_eq_some_iff, ne_eq, not_exists]

/-- On a scale without levels repeated up to letter case, each level is in its own place. -/
theorem atPlace_level {levels : List String} (hscale : r.scales.get? field = some levels)
    (hdistinct : (levels.map lowerText).Nodup) (hi : i < levels.length) : r.AtPlace field (.text levels[i]) i := by
  have hlevel : (levels.map lowerText)[i]? = some (lowerText levels[i]) := by simp [hi]
  refine ⟨levels, hscale, hlevel, fun j hj hsame => ?_⟩
  have hlt : i < (levels.map lowerText).length := by simpa using hi
  exact hj.ne ((List.getElem?_inj (hj.trans hlt) hdistinct).1 (hsame.trans hlevel.symm))

/-! ### The three regimes -/

/-- The regime in which two values of a field are compared. -/
inductive Regime (r : Ruleset) (field : String) (l x : Value) : Prop
  | places {i j : Nat} (left : r.AtPlace field l i) (right : r.AtPlace field x j)
  | sizes {a b : WithBot (WithTop ℚ)} (apart : ¬ r.BothOnScale field l x) (left : l.size? = some a)
      (right : x.size? = some b)
  | neither (apart : ¬ r.BothOnScale field l x) (unsized : l.size? = none ∨ x.size? = none)

theorem regime (r : Ruleset) (field : String) (l x : Value) : r.Regime field l x := by
  by_cases h : r.BothOnScale field l x
  · obtain ⟨⟨i, hl⟩, j, hx⟩ := h
    exact .places hl hx
  · cases hl : l.size? with
    | none => exact .neither h (.inl hl)
    | some a =>
      cases hx : x.size? with
      | none => exact .neither h (.inr hx)
      | some b => exact .sizes h hl hx

theorem compare_of_places (hl : r.AtPlace field l i) (hx : r.AtPlace field x j) (op : Operator) :
    r.compare field op l x = op.holds (cmp i j) := by
  rw [cmp_eq_compare]
  simp only [compare, ordinal?_eq_some_iff.2 hl, ordinal?_eq_some_iff.2 hx]

theorem compare_of_apart (hapart : ¬ r.BothOnScale field l x) (op : Operator) :
    r.compare field op l x = Value.compareAlone op l x := by
  have hpair : r.ordinal? field l = none ∨ r.ordinal? field x = none := by
    rw [ordinal?_eq_none_iff, ordinal?_eq_none_iff]
    exact not_and_or.1 hapart
  unfold compare
  split
  · rename_i hl hx
    rw [hl, hx] at hpair
    rcases hpair with h | h <;> cases h
  · cases l with
    | number m =>
      cases x with
      | number n => exact op.elim_order (m.compare? n)
      | _ => exact op.unordered_eq _
    | _ => exact op.unordered_eq _

theorem compare_of_sizes (hapart : ¬ r.BothOnScale field l x) (hl : l.size? = some a) (hx : x.size? = some b)
    (op : Operator) : r.compare field op l x = op.holds (cmp a b) := by
  rw [compare_of_apart hapart]
  cases l with
  | number m =>
    cases x with
    | number n => rw [Value.compareAlone, Number.compare?_of_sizes hl hx, Option.elim_some]
    | _ => cases hx
  | _ => cases hl

theorem compare_of_unsized (hapart : ¬ r.BothOnScale field l x) (hsize : l.size? = none ∨ x.size? = none)
    (op : Operator) : r.compare field op l x = op.unordered (l.sameText x) := by
  rw [compare_of_apart hapart]
  cases l with
  | number m =>
    cases x with
    | number n =>
      rw [Value.compareAlone, Number.compare?_eq_none_of_unsized hsize, Option.elim_none, Value.sameText]
      rfl
    | _ => simp [Value.compareAlone, Value.sameText, Value.isNumber]
  | _ => simp [Value.compareAlone, Value.sameText, Value.isNumber]

theorem compare_iff_places (hl : r.AtPlace field l i) (hx : r.AtPlace field x j) (op : Operator) :
    r.compare field op l x = true ↔ op.Between i j := by
  rw [compare_of_places hl hx, Operator.holds_cmp]

theorem compare_iff_sizes (hapart : ¬ r.BothOnScale field l x) (hl : l.size? = some a) (hx : x.size? = some b)
    (op : Operator) : r.compare field op l x = true ↔ op.Between a b := by
  rw [compare_of_sizes hapart hl hx, Operator.holds_cmp]

/-! ### The laws -/

theorem compare_ne (r : Ruleset) (field : String) (l x : Value) :
    r.compare field .ne l x = !r.compare field .eq l x := by
  rcases r.regime field l x with ⟨hl, hx⟩ | ⟨hapart, hl, hx⟩ | ⟨hapart, hsize⟩
  · rw [compare_of_places hl hx, compare_of_places hl hx, Operator.holds_ne]
  · rw [compare_of_sizes hapart hl hx, compare_of_sizes hapart hl hx, Operator.holds_ne]
  · rw [compare_of_unsized hapart hsize, compare_of_unsized hapart hsize]
    rfl

theorem compare_mirror (r : Ruleset) (field : String) (op : Operator) (l x : Value) :
    r.compare field op l x = r.compare field op.mirror x l := by
  rcases r.regime field l x with @⟨i, j, hl, hx⟩ | @⟨a, b, hapart, hl, hx⟩ | ⟨hapart, hsize⟩
  · rw [compare_of_places hl hx, compare_of_places hx hl, ← cmp_swap j i, Operator.holds_swap]
  · rw [compare_of_sizes hapart hl hx, compare_of_sizes (mt bothOnScale_comm.1 hapart) hx hl, ← cmp_swap b a,
      Operator.holds_swap]
  · rw [compare_of_unsized hapart hsize, compare_of_unsized (mt bothOnScale_comm.1 hapart) hsize.symm,
      Value.sameText_comm]
    cases op <;> rfl

/-- The laws of the six operators on the values of a field. -/
structure Lawful (r : Ruleset) (field : String) : Prop where
  negation : ∀ l x, r.compare field .ne l x = !r.compare field .eq l x
  mirrored : ∀ op l x, r.compare field op l x = r.compare field op.mirror x l
  /-- Values on the scale are compared by their places. -/
  places : ∀ op l x i j, r.AtPlace field l i → r.AtPlace field x j →
    (r.compare field op l x = true ↔ op.Between i j)
  /-- Where no level is repeated up to letter case, the levels are compared as they stand on the scale. -/
  levels : ∀ levels, r.scales.get? field = some levels → (levels.map lowerText).Nodup →
    ∀ op i j (hi : i < levels.length) (hj : j < levels.length),
      r.compare field op (.text levels[i]) (.text levels[j]) = true ↔ op.Between i j
  /-- Other numbers are compared by their exact sizes. -/
  sizes : ∀ op l x a b, ¬ r.BothOnScale field l x → l.size? = some a → x.size? = some b →
    (r.compare field op l x = true ↔ op.Between a b)
  trichotomy : ∀ l x a b, ¬ r.BothOnScale field l x → l.size? = some a → x.size? = some b →
    ∃! op, op ∈ [Operator.lt, .eq, .gt] ∧ r.compare field op l x = true
  orEqual : ∀ l x a b, ¬ r.BothOnScale field l x → l.size? = some a → x.size? = some b →
    (r.compare field .le l x = true ↔ r.compare field .lt l x = true ∨ r.compare field .eq l x = true) ∧
    (r.compare field .ge l x = true ↔ r.compare field .gt l x = true ∨ r.compare field .eq l x = true)
  /-- Other values have no order. -/
  unordered : ∀ l x, ¬ r.BothOnScale field l x → l.size? = none ∨ x.size? = none →
    ∀ op ∈ [Operator.lt, .le, .gt, .ge], r.compare field op l x = false
  trans_places : ∀ u v w, r.OnScale field u → r.OnScale field v → r.OnScale field w →
    r.compare field .lt u v = true → r.compare field .lt v w = true → r.compare field .lt u w = true
  trans_sizes : ∀ u v w a b c, ¬ r.OnScale field u → ¬ r.OnScale field v → ¬ r.OnScale field w →
    u.size? = some a → v.size? = some b → w.size? = some c →
    r.compare field .lt u v = true → r.compare field .lt v w = true → r.compare field .lt u w = true

theorem comparisons_lawful (r : Ruleset) (field : String) : r.Lawful field where
  negation := r.compare_ne field
  mirrored := r.compare_mirror field
  places op l x i j hl hx := compare_iff_places hl hx op
  levels levels hscale hdistinct op i j hi hj :=
    compare_iff_places (atPlace_level hscale hdistinct hi) (atPlace_level hscale hdistinct hj) op
  sizes op l x a b hapart hl hx := compare_iff_sizes hapart hl hx op
  trichotomy l x a b hapart hl hx := by
    obtain ⟨op, ⟨hop, hholds⟩, hunique⟩ := Operator.existsUnique_holds (cmp a b)
    refine ⟨op, ⟨hop, (compare_of_sizes hapart hl hx op).trans hholds⟩, ?_⟩
    rintro op' ⟨hop', hholds'⟩
    exact hunique op' ⟨hop', (compare_of_sizes hapart hl hx op').symm.trans hholds'⟩
  orEqual l x a b hapart hl hx := by
    simp only [compare_iff_sizes hapart hl hx]
    exact ⟨le_iff_lt_or_eq, le_iff_lt_or_eq.trans (or_congr_right eq_comm)⟩
  unordered l x hapart hsize op hop := by
    rw [compare_of_unsized hapart hsize, Operator.unordered_of_order hop]
  trans_places u v w hu hv hw huv hvw := by
    obtain ⟨i, hu⟩ := hu
    obtain ⟨j, hv⟩ := hv
    obtain ⟨k, hw⟩ := hw
    rw [compare_iff_places hu hv] at huv
    rw [compare_iff_places hv hw] at hvw
    exact (compare_iff_places hu hw .lt).2 (lt_trans huv hvw)
  trans_sizes u v w a b c hu hv hw ha hb hc huv hvw := by
    rw [compare_iff_sizes (fun h => hu h.1) ha hb] at huv
    rw [compare_iff_sizes (fun h => hv h.1) hb hc] at hvw
    exact (compare_iff_sizes (fun h => hu h.1) ha hc .lt).2 (lt_trans huv hvw)

/-- A scale on which a level is repeated in other letters and another is a number. -/
def graded : Ruleset :=
  ⟨"", "", "", .standard, .empty, .ofList [("Grade", ["low", "3", "High", "LOW"])], [], .empty⟩

/-- The last level counts as the first one; off the scale, 2 ^ 53 + 1 is more than the floating point number 2 ^ 53. -/
theorem comparisons_lawful_graded :
    graded.compare "Grade" .lt (.text "LOW") (.number (.real (.finite false (3 * Binary64.one)))) = true ∧
    graded.compare "Score" .gt (.int 9007199254740993)
      (.number (.real (.finite false (9007199254740992 * Binary64.one)))) = true := by
  have hlow : graded.AtPlace "Grade" (.text "LOW") 0 := ordinal?_eq_some_iff.1 (by decide +kernel)
  have hthree : graded.AtPlace "Grade" (.number (.real (.finite false (3 * Binary64.one)))) 1 :=
    ordinal?_eq_some_iff.1 (by decide +kernel)
  have hapart : ∀ l x, ¬ graded.BothOnScale "Score" l x := fun l x h => ordinal?_eq_none_iff.1 (by rfl) h.1
  refine ⟨((comparisons_lawful graded "Grade").places .lt _ _ 0 1 hlow hthree).2 Nat.zero_lt_one, ?_⟩
  have hreal : Value.size? (.number (.real (.finite false (9007199254740992 * Binary64.one)))) =
      some (((9007199254740992 : Int) : ℚ) : WithTop ℚ) := Number.size?_whole false 9007199254740992
  refine ((comparisons_lawful graded "Score").sizes .gt _ _ _ _ (hapart _ _) rfl hreal).2 ?_
  exact WithBot.coe_strictMono (WithTop.coe_strictMono (by decide +kernel))

end Ruleset
end Appraisal
