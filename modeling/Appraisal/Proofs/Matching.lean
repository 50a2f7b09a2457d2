import Appraisal.Proofs.Comparison
import Mathlib.Data.List.Basic
import Mathlib.Data.Option.Defs

/-! Matching by conditions. A rule matches exactly if all its conditions are satisfied (`mismatch_eq_none_iff`); where it
    does not, the first condition that is not satisfied gives the reason (`exists_first_of_mismatch`). Of the fields a
    rule sees no more than the values of those that its conditions test, up to equality (`mismatch_congr`). -/

namespace Appraisal.Ruleset
variable {r : Ruleset} {fields : OrderedMap Value}

/-- The condition is a comparison, its field is there, and the value of the field compares as the condition says. -/
def Satisfied (r : Ruleset) (fields : OrderedMap Value) (c : Condition) : Prop :=
  ∃ field op value left, c = .comparison field op value ∧ fields.get? field = some left ∧
    r.compare field op left value = true

/-- The reasons for which a condition is not satisfied. -/
inductive Fails (r : Ruleset) (fields : OrderedMap Value) : Condition → String → Prop
  | unparsed {raw : String} {extras : OrderedMap Value} : Fails r fields (.unparsed raw extras) "Unparsed condition"
  | missing {field : String} {op : Operator} {value : Value} (absent : fields.get? field = none) :
      Fails r fields (.comparison field op value) ("Missing field: " ++ field)
  | failed {field : String} {op : Operator} {value left : Value} (present : fields.get? field = some left)
      (differs : r.compare field op left value = false) :
      Fails r fields (.comparison field op value)
        ("Condition failed: " ++ (field ++ " " ++ op.symbol ++ " " ++ value.display))

theorem Fails.not_satisfied {c : Condition} {reason : String} (h : r.Fails fields c reason) : ¬ r.Satisfied fields c := by
  rintro ⟨field, op, value, left, rfl, hleft, hcompare⟩
  cases h with
  | missing absent =>
    rw [hleft] at absent
    cases absent
  | failed present differs =>
    rw [hleft] at present
    cases present
    rw [hcompare] at differs
    cases differs

/-- A condition is satisfied, or fails for the reason that its mismatch gives. -/
theorem conditionMismatch_cases (r : Ruleset) (fields : OrderedMap Value) (c : Condition) :
    (r.conditionMismatch fields c = none ∧ r.Satisfied fields c) ∨
    (∃ m, r.conditionMismatch fields c = some m ∧ r.Fails fields c m.reason) := by
  cases c with
  | unparsed raw extras => exact Or.inr ⟨_, rfl, .unparsed⟩
  | comparison field op value =>
    cases hleft : fields.get? field with
    | none => exact Or.inr ⟨.missingField field, by simp [conditionMismatch, hleft], .missing hleft⟩
    | some left =>
      cases hcompare : r.compare field op left value with
      | true =>
        exact Or.inl ⟨by simp [conditionMismatch, hleft, hcompare], field, op, value, left, rfl, hleft, hcompare⟩
      | false =>
        exact Or.inr ⟨.failed (Condition.comparison field op value).describe,
          by simp [conditionMismatch, hleft, hcompare], .failed hleft hcompare⟩

theorem conditionMismatch_eq_none_iff {c : Condition} : r.conditionMismatch fields c = none ↔ r.Satisfied fields c := by
  rcases conditionMismatch_cases r fields c with ⟨hnone, hs⟩ | ⟨m, hm, hf⟩
  · exact ⟨fun _ => hs, fun _ => hnone⟩
  · constructor
    · intro hnone
      rw [hm] at hnone
      cases hnone
    · exact fun hs => absurd hs hf.not_satisfied

theorem mismatch_eq_none_iff {rule : Rule} :
    r.mismatch rule fields = none ↔ ∀ c ∈ rule.conditions, r.Satisfied fields c := by
  rw [mismatch, List.findSome?_eq_none_iff]
  exact forall₂_congr fun _ _ => conditionMismatch_eq_none_iff

theorem exists_first_of_mismatch {rule : Rule} {m : Mismatch} (h : r.mismatch rule fields = some m) :
    ∃ before c after, rule.conditions = before ++ c :: after ∧ (∀ b ∈ before, r.Satisfied fields b) ∧
      r.Fails fields c m.reason := by
  obtain ⟨before, c, after, hconditions, hc, hbefore⟩ := List.findSome?_eq_some_iff.1 h
  refine ⟨before, c, after, hconditions, fun b hb => conditionMismatch_eq_none_iff.1 (hbefore b hb), ?_⟩
  rcases conditionMismatch_cases r fields c with ⟨hnone, -⟩ | ⟨m', hm', hf⟩
  · rw [hc] at hnone
    cases hnone
  · rw [hc] at hm'
    cases hm'
    exact hf

/-! ### What rules see of the fields -/

/-- A condition of the rule compares the field. -/
def Tests (rule : Rule) (field : String) : Prop := ∃ op value, Condition.comparison field op value ∈ rule.conditions

/-- For every field that a rule tests, both submissions have equal values, or neither has one. -/
def Agree (r : Ruleset) (f g : OrderedMap Value) : Prop :=
  ∀ rule ∈ r.rules, ∀ field, Tests rule field → Option.Rel Value.Equals (f.get? field) (g.get? field)

variable {f g : OrderedMap Value}

theorem agree_of_get? (h : ∀ key, f.get? key = g.get? key) : r.Agree f g := by
  intro rule _ field _
  rw [h field]
  cases g.get? field with
  | none => exact .none
  | some v => exact .some (.refl v)

theorem conditionMismatch_congr {c : Condition}
    (h : ∀ field op value, c = .comparison field op value → Option.Rel Value.Equals (f.get? field) (g.get? field)) :
    r.conditionMismatch f c = r.conditionMismatch g c := by
  cases c with
  | unparsed raw extras => rfl
  | comparison field op value =>
    have hfield := h field op value rfl
    simp only [conditionMismatch]
    revert hfield
    generalize f.get? field = left
    generalize g.get? field = left'
    rintro (hequals | _)
    · simp only [compare_eq_of_equals hequals]
    · rfl

theorem mismatch_congr (h : r.Agree f g) {rule : Rule} (hrule : rule ∈ r.rules) :
    r.mismatch rule f = r.mismatch rule g := by
  rw [mismatch, mismatch, ← List.head?_filterMap, ← List.head?_filterMap, List.filterMap_congr fun c hc => ?_]
  exact conditionMismatch_congr fun field op value hfield => h rule hrule field ⟨op, value, hfield ▸ hc⟩

theorem triggered_congr (h : r.Agree f g) : r.triggered f = r.triggered g :=
  List.filter_congr fun _ hrule => congrArg Option.isNone (mismatch_congr h hrule)

end Appraisal.Ruleset
