import Appraisal.Proofs.Decision

/-! Changes of the rule table. Whether a rule triggers, and how hard it is, depends on no other rule. So a further rule
    only adds to the rules that trigger, and the order of the table shows in their order and in the choice of the
    primary rule. The tier that decides is the strongest with a candidate (`strength_le_select`), and a candidate stays
    one when there are more rules; so the tier can become stronger only (`strengthened_of_sublist`). -/

namespace Appraisal

/-- The stronger of two tiers has the greater number. -/
def Tier.strength : Tier → Nat
  | .none => 0
  | .soft => 1
  | .hardOther => 2
  | .hardInfeasible => 3

theorem Tier.strength_inj {t u : Tier} (h : t.strength = u.strength) : t = u := by
  cases t <;> cases u <;> simp_all [strength]

namespace Decision

/-! ### Tiers with more rules -/

section
variable {hard soft hard' soft' : List Rule} {tier : Tier} {rule : Rule}

/-- No tier with a candidate is stronger than the one that is selected. -/
theorem strength_le_select (h : candidate hard soft tier = some rule) :
    tier.strength ≤ (select hard soft).1.strength := by
  -- A tier that is stronger than the selected one was passed over, as it has no candidate.
  rcases select_cases hard soft with ⟨_, -, hs⟩ | ⟨h₁, _, -, hs⟩ | ⟨h₁, h₂, _, -, hs⟩ | ⟨h₁, h₂, h₃, hs⟩ <;> rw [hs]
  · cases tier <;> simp [Tier.strength]
  · cases tier with
    | hardInfeasible => rw [h₁] at h; cases h
    | _ => simp [Tier.strength]
  · cases tier with
    | hardInfeasible => rw [h₁] at h; cases h
    | hardOther => rw [h₂] at h; cases h
    | _ => simp [Tier.strength]
  · cases tier with
    | hardInfeasible => rw [h₁] at h; cases h
    | hardOther => rw [h₂] at h; cases h
    | soft => rw [h₃] at h; cases h
    | none => simp [Tier.strength]

/-- A tier that has a candidate has one when there are more rules. -/
theorem exists_candidate_of_subset (hhard : hard ⊆ hard') (hsoft : soft ⊆ soft')
    (h : candidate hard soft tier = some rule) : ∃ rule', candidate hard' soft' tier = some rule' := by
  rw [← Option.ne_none_iff_exists']
  intro hnone
  cases tier with
  | hardInfeasible =>
    rw [candidate_hardInfeasible_eq_none_iff] at hnone
    have hrule := hnone rule (hhard (List.mem_of_find?_eq_some h))
    have hinfeasible := List.find?_some h
    rw [hrule] at hinfeasible
    cases hinfeasible
  | hardOther =>
    rw [candidate_hardOther_eq_none_iff] at hnone
    have hrule := hnone rule (hhard (List.mem_of_find?_eq_some h))
    have hother := List.find?_some h
    rw [hrule] at hother
    cases hother
  | soft =>
    rw [candidate_soft_eq_none_iff] at hnone
    have hrule := hsoft (List.mem_of_head? h)
    rw [hnone] at hrule
    cases hrule
  | none => cases h

theorem strength_select_mono (hhard : hard ⊆ hard') (hsoft : soft ⊆ soft') :
    (select hard soft).1.strength ≤ (select hard' soft').1.strength := by
  obtain ⟨hcandidate, hnone⟩ := Ruleset.select_snd hard soft
  cases hrule : (select hard soft).2 with
  | none =>
    rw [hnone.1 hrule]
    exact Nat.zero_le _
  | some rule =>
    obtain ⟨rule', hrule'⟩ := exists_candidate_of_subset hhard hsoft (hcandidate.symm.trans hrule)
    exact strength_le_select hrule'

theorem select_fst_eq_of_perm (hhard : hard.Perm hard') (hsoft : soft.Perm soft') :
    (select hard soft).1 = (select hard' soft').1 :=
  Tier.strength_inj (Nat.le_antisymm (strength_select_mono hhard.subset hsoft.subset)
    (strength_select_mono hhard.symm.subset hsoft.symm.subset))

end

/-! ### What a change of the table does to a decision -/

/-- A decision and one in which more rules trigger: the others keep their order, and the tier is no weaker. -/
structure Strengthened (d e : Decision) : Prop where
  tier : d.tier.strength ≤ e.tier.strength
  triggered : d.triggered.Sublist e.triggered
  triggeredHard : d.triggeredHard.Sublist e.triggeredHard
  triggeredSoft : d.triggeredSoft.Sublist e.triggeredSoft

/-- A decision and one in which the same rules trigger in some other order. -/
structure Shuffled (d e : Decision) : Prop where
  verdict : d.verdict = e.verdict
  tier : d.tier = e.tier
  triggered : d.triggered.Perm e.triggered
  triggeredHard : d.triggeredHard.Perm e.triggeredHard
  triggeredSoft : d.triggeredSoft.Perm e.triggeredSoft

end Decision

namespace Ruleset
open Decision

/-- The ruleset with other rules. -/
def withRules (r : Ruleset) (rules : List Rule) : Ruleset := { r with rules }

section
variable {rules rules' : List Rule}

/-- Of the rules of a table those trigger that do so on their own. -/
theorem triggered_withRules (r : Ruleset) (fields : OrderedMap Value) (rules : List Rule) :
    (r.withRules rules).triggered fields = rules.filter (r.triggers fields) := rfl

theorem strengthened_of_sublist (r : Ruleset) (h : rules.Sublist rules') (fields : OrderedMap Value)
    (derivations : List Derivation) :
    ((r.withRules rules).decide fields derivations).Strengthened ((r.withRules rules').decide fields derivations) := by
  have htriggered : ((r.withRules rules).triggered fields).Sublist ((r.withRules rules').triggered fields) := h.filter _
  have hhard : ((r.withRules rules).triggeredHard fields).Sublist ((r.withRules rules').triggeredHard fields) :=
    htriggered.filter _
  have hsoft : ((r.withRules rules).triggeredSoft fields).Sublist ((r.withRules rules').triggeredSoft fields) :=
    htriggered.filter _
  exact ⟨strength_select_mono hhard.subset hsoft.subset, htriggered.map _, hhard.map _, hsoft.map _⟩

theorem shuffled_of_perm (r : Ruleset) (h : rules.Perm rules') (fields : OrderedMap Value)
    (derivations : List Derivation) :
    ((r.withRules rules).decide fields derivations).Shuffled ((r.withRules rules').decide fields derivations) := by
  have htriggered : ((r.withRules rules).triggered fields).Perm ((r.withRules rules').triggered fields) := h.filter _
  have hhard : ((r.withRules rules).triggeredHard fields).Perm ((r.withRules rules').triggeredHard fields) :=
    htriggered.filter _
  have hsoft : ((r.withRules rules).triggeredSoft fields).Perm ((r.withRules rules').triggeredSoft fields) :=
    htriggered.filter _
  have htier := select_fst_eq_of_perm hhard hsoft
  exact ⟨congrArg Tier.verdict htier, htier, htriggered.map _, hhard.map _, hsoft.map _⟩

/-- Tables with the same rules that trigger decide alike. -/
theorem decide_eq_of_triggered (r : Ruleset) {fields : OrderedMap Value}
    (h : (r.withRules rules).triggered fields = (r.withRules rules').triggered fields) (derivations : List Derivation) :
    (r.withRules rules).decide fields derivations = (r.withRules rules').decide fields derivations := by
  simp only [decide, h]
  rfl

end

/-- A rule that is put anywhere into the table leaves the rules that trigger in place and never makes the tier weaker,
    and if it does not match, it changes nothing. Rules in another order give the same verdict and tier, and the
    same rules trigger. -/
theorem rule_table_changed (r : Ruleset) (fields : OrderedMap Value) (derivations : List Derivation) :
    (∀ before after rule, r.rules = before ++ after →
      let changed := (r.withRules (before ++ rule :: after)).decide fields derivations
      (r.decide fields derivations).Strengthened changed ∧
        (r.mismatch rule fields ≠ none → changed = r.decide fields derivations)) ∧
    ∀ rules, r.rules.Perm rules → (r.decide fields derivations).Shuffled ((r.withRules rules).decide fields derivations) := by
  refine ⟨fun before after rule hrules => ?_, fun rules hperm => r.shuffled_of_perm hperm fields derivations⟩
  have hsublist : r.rules.Sublist (before ++ rule :: after) := by
    rw [hrules]
    exact (List.Sublist.refl before).append (List.sublist_cons_self rule after)
  refine ⟨r.strengthened_of_sublist hsublist fields derivations, fun hmismatch => ?_⟩
  have hsilent : r.triggers fields rule ≠ true := by
    rwa [triggers, Ne, Option.isNone_iff_eq_none]
  refine r.decide_eq_of_triggered ?_ derivations
  rw [triggered_withRules, triggered_withRules, hrules, List.filter_append, List.filter_append,
    List.filter_cons_of_neg hsilent]

/-- A rule with nothing but an id, a level, conditions and a judgement. -/
def plainRule (id level : String) (conditions : List Condition) (judgement : String) : Rule :=
  ⟨id, "", "", "", some level, conditions, ⟨judgement, .empty⟩, none, none, .empty⟩

/-- A soft and a hard rule that trigger for all fields. -/
def lenient : Ruleset :=
  ⟨"", "", "", .standard, .empty, .empty, [plainRule "R1" " Soft" [] "", plainRule "R2" "" [] "Limited"], .empty⟩

/-- A rule that refuses is put between them, then one that cannot be read; and the rules change places. -/
theorem rule_table_changed_refused :
    let fields : OrderedMap Value := .ofList [("Phase", .text "alpha")]
    let refusal := plainRule "R3" "hard" [.comparison "Phase" .eq (.text "Alpha")] "INFEASIBLE"
    let unreadable := plainRule "R4" "hard" [.unparsed "Phase is alpha" .empty] "Infeasible"
    let inserted (rule : Rule) := lenient.withRules ([plainRule "R1" " Soft" [] ""] ++ rule ::
      [plainRule "R2" "" [] "Limited"])
    ((lenient.decide fields []).tier = .hardOther ∧ ((inserted refusal).decide fields []).tier = .hardInfeasible ∧
      (lenient.decide fields []).Strengthened ((inserted refusal).decide fields [])) ∧
    (inserted unreadable).decide fields [] = lenient.decide fields [] ∧
    (lenient.decide fields []).Shuffled ((lenient.withRules lenient.rules.reverse).decide fields []) := by
  intro fields refusal unreadable inserted
  obtain ⟨hinserted, hshuffled⟩ := rule_table_changed lenient fields []
  refine ⟨⟨by decide +kernel, by decide +kernel, (hinserted _ _ refusal rfl).1⟩,
    (hinserted _ _ unreadable rfl).2 ?_, hshuffled _ lenient.rules.reverse_perm.symm⟩
  exact nofun

end Ruleset
end Appraisal
