import Appraisal.Proofs.Matching
import Appraisal.Proofs.Ruleset.Parts

/-! Conditions from their document. The conditions of a rule that is accepted are its entries one by one
    (`read_conditions`): an entry that is complete is a comparison, every other one is kept as text and never
    satisfied. So a rule with an entry that is not a comparison matches no fields. -/

namespace Appraisal

/-! ### Operators -/

namespace Operator

/-- An operator as it is written in a text. -/
def spelled (s : String) : String := if stripText s = "==" then "=" else stripText s

theorem ofSymbol?_eq_some_iff {s : String} {op : Operator} : ofSymbol? s = some op ↔ s = op.symbol := by
  constructor
  · intro h
    exact (by simpa using List.find?_some h : op.symbol = s).symm
  · rintro rfl
    exact ofSymbol?_symbol op

theorem ofValue?_eq_some_iff {v : Value} {op : Operator} :
    ofValue? v = some op ↔ ∃ s, v = .text s ∧ spelled s = op.symbol := by
  cases v with
  | text s => simp [ofValue?, normalize, ofSymbol?_eq_some_iff, spelled]
  | _ => simp [ofValue?, normalize]

theorem exists_symbol_iff {s : String} : (∃ op : Operator, s = op.symbol) ↔ s ∈ ["=", "!=", ">", ">=", "<", "<="] := by
  constructor
  · rintro ⟨op, rfl⟩
    cases op <;> decide
  · intro h
    simp only [List.mem_cons, List.not_mem_nil, or_false] at h
    rcases h with rfl | rfl | rfl | rfl | rfl | rfl
    exacts [⟨.eq, rfl⟩, ⟨.ne, rfl⟩, ⟨.gt, rfl⟩, ⟨.ge, rfl⟩, ⟨.lt, rfl⟩, ⟨.le, rfl⟩]

end Operator

/-! ### Entries -/

namespace Condition

/-- The entry is a complete comparison: a mapping that names this kind, or one that names neither kind and has a field
    that is not blank and one of the six operators. -/
def IsComparison (v : Value) : Prop :=
  ∃ entries, v = .map entries ∧
    (Entries.get? "kind" entries = some (.text "comparison") ∨
      Entries.get? "kind" entries ≠ some (.text "comparison") ∧
      Entries.get? "kind" entries ≠ some (.text "unparsed") ∧
      (∃ field, Entries.get? "field" entries = some field ∧ field.isBlank = false) ∧
      ∃ s, Entries.get? "op" entries = some (.text s) ∧
        Operator.spelled s ∈ ["=", "!=", ">", ">=", "<", "<="])

/-- What an entry becomes: a complete comparison the condition with its field, operator and value, and any other entry a
    text. -/
inductive Becomes : Value → Condition → Prop
  | comparison {entries : List (String × Value)} {field s : String} {op : Operator}
      (complete : IsComparison (.map entries)) (hfield : Entries.get? "field" entries = some (.text field))
      (hop : Entries.get? "op" entries = some (.text s)) (spelled : Operator.spelled s = op.symbol) :
      Becomes (.map entries) (.comparison field op ((Entries.get? "value" entries).getD .null))
  | unparsed {v : Value} {raw : String} {extras : OrderedMap Value} (incomplete : ¬ IsComparison v) :
      Becomes v (.unparsed raw extras)

theorem namedKind?_eq_comparison_iff {o : Option Value} :
    namedKind? o = some .comparison ↔ o = some (.text "comparison") := by
  unfold namedKind?
  split
  · split
    · simp_all [Kind.name]
    · split <;> simp_all [Kind.name]
  · simp_all

theorem namedKind?_eq_unparsed_iff {o : Option Value} :
    namedKind? o = some .unparsed ↔ o = some (.text "unparsed") := by
  unfold namedKind?
  split
  · split
    · simp_all [Kind.name]
    · split <;> simp_all [Kind.name]
  · simp_all

theorem exists_filled_iff {o : Option Value} :
    (∃ v, o = some v ∧ v.isBlank = false) ↔ (o.getD .null).isBlank = false := by
  cases o <;> simp [Value.isBlank]

theorem exists_operator_iff {v : Value} : (Operator.ofValue? v).isSome = true ↔
    ∃ s, v = .text s ∧ Operator.spelled s ∈ ["=", "!=", ">", ">=", "<", "<="] := by
  simp only [Option.isSome_iff_exists, Operator.ofValue?_eq_some_iff, ← Operator.exists_symbol_iff]
  constructor
  · rintro ⟨op, s, rfl, hs⟩
    exact ⟨s, rfl, op, hs⟩
  · rintro ⟨s, rfl, op, hs⟩
    exact ⟨op, s, rfl, hs⟩

/-- The kind of an entry is that of comparisons exactly if the entry is a complete one. -/
theorem isComparison_iff {v : Value} {kind : Kind} (h : kindOf v = .ok kind) : IsComparison v ↔ kind = .comparison := by
  cases v with
  | map entries =>
    simp only [IsComparison, Value.map.injEq, exists_eq_left']
    rw [exists_filled_iff]
    simp only [kindOf] at h
    split at h
    · rename_i hnamed
      cases h
      cases kind with
      | comparison => simp [namedKind?_eq_comparison_iff.1 hnamed]
      | unparsed => simp [namedKind?_eq_unparsed_iff.1 hnamed]
    · rename_i hnamed
      have hc : Entries.get? "kind" entries ≠ some (.text "comparison") := fun hk => by
        rw [namedKind?_eq_comparison_iff.2 hk] at hnamed
        cases hnamed
      have hu : Entries.get? "kind" entries ≠ some (.text "unparsed") := fun hk => by
        rw [namedKind?_eq_unparsed_iff.2 hk] at hnamed
        cases hnamed
      split at h
      · rename_i hblank
        cases h
        simp [hc, hblank]
      · rename_i hfilled
        split at h
        · cases h
        · cases h
        · rename_i op _ _ hop
          cases h
          have hsome : (∃ s, some op = some (.text s) ∧
              Operator.spelled s ∈ ["=", "!=", ">", ">=", "<", "<="]) ↔ (Operator.ofValue? op).isSome = true := by
            rw [exists_operator_iff]
            simp only [Option.some.injEq]
          rw [hop, hsome]
          split
          · rename_i hop
            simp [hc, hu, hfilled, hop]
          · rename_i hop
            simp [hc, hop]
        · rename_i hop
          cases h
          simp [hc, hop]
  | _ =>
    cases h
    simp [IsComparison]

theorem checkOperator_eq_accepted {v : Value} {op : Operator} :
    checkOperator v = .accepted op ↔ Operator.ofValue? v = some op := by
  unfold checkOperator
  cases Operator.ofValue? v <;> simp [Checked.flawed]

theorem readComparison_eq_accepted {entries : List (String × Value)} {c : Condition}
    (h : readComparison entries = .accepted c) :
    ∃ field s op, Entries.get? "field" entries = some (.text field) ∧ Entries.get? "op" entries = some (.text s) ∧
      Operator.spelled s = op.symbol ∧ c = .comparison field op ((Entries.get? "value" entries).getD .null) := by
  unfold readComparison at h
  obtain ⟨_, op, h₁, hop, rfl⟩ := Checked.ap_eq_accepted.1 h
  obtain ⟨_, field, h₂, hfield, rfl⟩ := Checked.ap_eq_accepted.1 h₁
  obtain ⟨_, -, rfl⟩ := Checked.fmap_eq_accepted.1 h₂
  obtain ⟨f, hf, htext⟩ := Checked.field_eq_accepted.1 hfield
  obtain ⟨o, ho, hcheck⟩ := Checked.field_eq_accepted.1 hop
  obtain ⟨s, rfl, hs⟩ := Operator.ofValue?_eq_some_iff.1 (checkOperator_eq_accepted.1 hcheck)
  exact ⟨field, s, op, by rw [hf, Checked.text_eq_accepted.1 htext], ho, hs, rfl⟩

theorem readUnparsed_eq_accepted {entries : List (String × Value)} {c : Condition}
    (h : readUnparsed entries = .accepted c) : ∃ raw extras, c = .unparsed raw extras := by
  unfold readUnparsed at h
  obtain ⟨_, raw, h₁, -, rfl⟩ := Checked.ap_eq_accepted.1 h
  obtain ⟨_, -, rfl⟩ := Checked.fmap_eq_accepted.1 h₁
  exact ⟨raw, _, rfl⟩

/-- What is accepted of an entry is what the entry becomes. -/
theorem becomes_of_read {v : Value} {c : Condition} (h : Condition.read v = .accepted c) : Becomes v c := by
  unfold Condition.read at h
  split at h
  · cases h
  · rename_i kind hkind
    have hiff := isComparison_iff hkind
    replace h := Checked.within_eq_accepted.1 h
    split at h
    · obtain ⟨field, s, op, hfield, hop, hspelled, rfl⟩ := readComparison_eq_accepted h
      exact .comparison (hiff.2 rfl) hfield hop hspelled
    · obtain ⟨raw, extras, rfl⟩ := readUnparsed_eq_accepted h
      exact .unparsed fun hc => nomatch hiff.1 hc
    · obtain ⟨raw, extras, rfl⟩ := readUnparsed_eq_accepted h
      exact .unparsed fun hc => nomatch hiff.1 hc
    · cases h

end Condition

/-! ### Rules -/

namespace Rule

/-- What a rule lists as its conditions: the value under `if`, or under `conditions` where there is no `if`. -/
def listed? (entries : List (String × Value)) : Option Value :=
  (Entries.get? "if" entries).or (Entries.get? "conditions" entries)

/-- The entries of a rule for its conditions; nothing and `null` stand for none. -/
inductive Lists (entries : List (String × Value)) : List Value → Prop
  | absent (h : listed? entries = none) : Lists entries []
  | null (h : listed? entries = some .null) : Lists entries []
  | items {vs : List Value} (h : listed? entries = some (.list vs)) : Lists entries vs

theorem get?_conditionsKey (entries : List (String × Value)) :
    Entries.get? (conditionsKey entries) entries = listed? entries := by
  unfold conditionsKey listed?
  cases hif : Entries.get? "if" entries with
  | some v => simp [hif]
  | none =>
    cases hconditions : Entries.get? "conditions" entries with
    | some v => simp [hconditions]
    | none => simp [hif]

/-- The conditions of a rule that is accepted are its entries one by one. -/
theorem read_conditions {doc : Value} {rule : Rule} (h : Rule.read doc = .accepted rule) :
    ∃ entries vs, doc = .map entries ∧ Lists entries vs ∧ List.Forall₂ Condition.Becomes vs rule.conditions := by
  obtain ⟨entries, hentries, hrule⟩ := Checked.andThen_eq_accepted.1 h
  have hconditions := (ofEntries_eq_accepted.1 hrule).conditions
  unfold Checked.field at hconditions
  rw [get?_conditionsKey] at hconditions
  have hdoc := Checked.record_eq_accepted.1 hentries
  split at hconditions
  · rename_i v hv
    replace hconditions := Checked.within_eq_accepted.1 hconditions
    unfold readConditions at hconditions
    split at hconditions
    · obtain h : [] = rule.conditions := by simpa using hconditions
      exact ⟨entries, [], hdoc, .null hv, h ▸ .nil⟩
    · obtain ⟨vs, rfl, hvs⟩ := Checked.list_eq_accepted.1 hconditions
      exact ⟨entries, vs, hdoc, .items hv, hvs.imp fun _ _ => Condition.becomes_of_read⟩
  · rename_i hnone
    obtain h : [] = rule.conditions := by simpa using Checked.within_eq_accepted.1 hconditions
    exact ⟨entries, [], hdoc, .absent hnone, h ▸ .nil⟩

/-! ### Matching a rule from its document -/

theorem exists_condition {v : Value} {vs : List Value} {cs : List Condition}
    (h : List.Forall₂ Condition.Becomes vs cs) (hv : v ∈ vs) : ∃ c ∈ cs, Condition.Becomes v c :=
  exists_of_forall₂ h hv

theorem not_satisfied_of_incomplete {v : Value} {c : Condition} {r : Ruleset} {fields : OrderedMap Value}
    (h : Condition.Becomes v c) (incomplete : ¬ Condition.IsComparison v) : ¬ r.Satisfied fields c := by
  cases h with
  | comparison complete => exact absurd complete incomplete
  | unparsed => exact Ruleset.Fails.unparsed.not_satisfied

/-- The conditions of a rule that is accepted are the entries of its document one by one. The rule matches exactly if
    all are satisfied, so never if an entry is no complete comparison, and if it does not match, the reason is that
    of the first entry that fails. -/
theorem conditions_decide_match {doc : Value} {rule : Rule} (h : Rule.read doc = .accepted rule) :
    ∃ entries vs, doc = .map entries ∧ Lists entries vs ∧ List.Forall₂ Condition.Becomes vs rule.conditions ∧
      ∀ (r : Ruleset) (fields : OrderedMap Value),
        (r.mismatch rule fields = none ↔ ∀ c ∈ rule.conditions, r.Satisfied fields c) ∧
        ((∃ v ∈ vs, ¬ Condition.IsComparison v) → r.mismatch rule fields ≠ none) ∧
        ∀ m, r.mismatch rule fields = some m → ∃ before c after, rule.conditions = before ++ c :: after ∧
          (∀ b ∈ before, r.Satisfied fields b) ∧ r.Fails fields c m.reason := by
  obtain ⟨entries, vs, hdoc, hlists, hbecomes⟩ := read_conditions h
  refine ⟨entries, vs, hdoc, hlists, hbecomes, fun r fields => ⟨Ruleset.mismatch_eq_none_iff, ?_, fun m hm =>
    Ruleset.exists_first_of_mismatch hm⟩⟩
  rintro ⟨v, hv, incomplete⟩ hnone
  obtain ⟨c, hc, hvc⟩ := exists_condition hbecomes hv
  exact not_satisfied_of_incomplete hvc incomplete (Ruleset.mismatch_eq_none_iff.1 hnone c hc)

/-- A comparison with a misspelt operator keeps a rule from matching, whatever the fields are. -/
theorem conditions_decide_match_misspelt : ∃ rule, Rule.read (.map [("id", .text "R1"), ("if", .list [
      .map [("field", .text "Phase"), ("op", .text " == "), ("value", .text "alpha")],
      .map [("field", .text "Rating"), ("op", .text "=>"), ("value", .int 2)]])]) = .accepted rule ∧
    ∀ r fields, Ruleset.mismatch r rule fields ≠ none := by
  refine Exists.imp (fun rule hrule => ⟨hrule, fun r fields => ?_⟩) ⟨_, by rfl⟩
  obtain ⟨entries, vs, hdoc, hlists, -, hmatch⟩ := conditions_decide_match hrule
  cases hdoc
  refine (hmatch r fields).2.1 ⟨.map [("field", .text "Rating"), ("op", .text "=>"), ("value", .int 2)], ?_, ?_⟩
  · cases hlists with
    | absent h => cases h
    | null h => cases h
    | items h =>
      cases h
      simp
  · rintro ⟨_, hentries, hkind | ⟨-, -, -, s, hs, hop⟩⟩
    · cases hentries
      cases hkind
    · cases hentries
      cases hs
      revert hop
      decide

end Rule
end Appraisal
