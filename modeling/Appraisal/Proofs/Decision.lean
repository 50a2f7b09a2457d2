import Appraisal.Decision
import Appraisal.Proofs.Matching

/-! Decisions from the rules as they are declared. A tier takes the first rule that is eligible for it among all rules
    (`candidate_eq_find?`), and the first tier that takes a rule decides; so verdict, primary rule and judgement
    follow from which hard and soft rules trigger, and from the values of the fields that rules test (`decide_congr`). -/

namespace Appraisal

/-! ### Tiers -/

namespace Decision

/-- The first tier with a candidate is selected with it. -/
theorem select_cases (hard soft : List Rule) :
    (∃ rule, candidate hard soft .hardInfeasible = some rule ∧ select hard soft = (.hardInfeasible, some rule)) ∨
    (candidate hard soft .hardInfeasible = none ∧
      ∃ rule, candidate hard soft .hardOther = some rule ∧ select hard soft = (.hardOther, some rule)) ∨
    (candidate hard soft .hardInfeasible = none ∧ candidate hard soft .hardOther = none ∧
      ∃ rule, candidate hard soft .soft = some rule ∧ select hard soft = (.soft, some rule)) ∨
    (candidate hard soft .hardInfeasible = none ∧ candidate hard soft .hardOther = none ∧
      candidate hard soft .soft = none ∧ select hard soft = (.none, none)) := by
  have hnone : candidate hard soft .none = none := rfl
  simp only [select, Tier.all, List.findSome?_cons, List.findSome?_nil, hnone, Option.map_none]
  cases h₁ : candidate hard soft .hardInfeasible with
  | some rule => exact Or.inl ⟨rule, rfl, rfl⟩
  | none =>
    cases h₂ : candidate hard soft .hardOther with
    | some rule => exact Or.inr (Or.inl ⟨rfl, rule, rfl, rfl⟩)
    | none =>
      cases h₃ : candidate hard soft .soft with
      | some rule => exact Or.inr (Or.inr (Or.inl ⟨rfl, rfl, rule, rfl, rfl⟩))
      | none => exact Or.inr (Or.inr (Or.inr ⟨rfl, rfl, rfl, rfl⟩))

variable {hard soft : List Rule}

theorem candidate_hardInfeasible_eq_none_iff :
    candidate hard soft .hardInfeasible = none ↔ ∀ rule ∈ hard, rule.isInfeasible = false := by
  simp [candidate]

theorem candidate_hardOther_eq_none_iff :
    candidate hard soft .hardOther = none ↔ ∀ rule ∈ hard, rule.isInfeasible = true := by
  simp [candidate]

theorem candidate_soft_eq_none_iff : candidate hard soft .soft = none ↔ soft = [] := by
  simp [candidate]

theorem ne_nil_of_candidate_hardOther {rule : Rule} (h : candidate hard soft .hardOther = some rule) : hard ≠ [] :=
  List.ne_nil_of_mem (List.mem_of_find?_eq_some h)

/-- If no hard tier has a candidate, there are no hard rules. -/
theorem hard_eq_nil (h₁ : candidate hard soft .hardInfeasible = none) (h₂ : candidate hard soft .hardOther = none) :
    hard = [] := by
  rw [candidate_hardInfeasible_eq_none_iff] at h₁
  rw [candidate_hardOther_eq_none_iff] at h₂
  refine List.eq_nil_iff_forall_not_mem.2 fun rule hrule => ?_
  have := (h₁ rule hrule).symm.trans (h₂ rule hrule)
  cases this

end Decision

namespace Ruleset
open Decision

/-- The rule triggers and belongs to the tier. -/
def eligible (r : Ruleset) (fields : OrderedMap Value) : Tier → Rule → Bool
  | .hardInfeasible, rule => r.triggers fields rule && (!r.isSoft rule && rule.isInfeasible)
  | .hardOther, rule => r.triggers fields rule && (!r.isSoft rule && !rule.isInfeasible)
  | .soft, rule => r.triggers fields rule && r.isSoft rule
  | .none, _ => false

/-- The hard rules that trigger. -/
def triggeredHard (r : Ruleset) (fields : OrderedMap Value) : List Rule := (r.triggered fields).filter (!r.isSoft ·)

/-- The soft rules that trigger. -/
def triggeredSoft (r : Ruleset) (fields : OrderedMap Value) : List Rule := (r.triggered fields).filter r.isSoft

theorem find?_filter_triggered (r : Ruleset) (fields : OrderedMap Value) (p q : Rule → Bool) :
    ((r.triggered fields).filter p).find? q = r.rules.find? fun rule => r.triggers fields rule && (p rule && q rule) := by
  rw [triggered, List.find?_filter, List.find?_filter]
  congr 1
  funext rule
  simp

/-- A tier takes the first of all rules that is eligible for it. -/
theorem candidate_eq_find? (r : Ruleset) (fields : OrderedMap Value) (tier : Tier) :
    candidate (r.triggeredHard fields) (r.triggeredSoft fields) tier = r.rules.find? (r.eligible fields tier) := by
  cases tier with
  | hardInfeasible => exact find?_filter_triggered r fields _ _
  | hardOther => exact find?_filter_triggered r fields _ _
  | soft =>
    rw [candidate, triggeredSoft, triggered, List.head?_filter, List.find?_filter]
    congr 1
    funext rule
    simp [eligible]
  | none =>
    symm
    exact List.find?_eq_none.2 fun _ _ => Bool.false_ne_true

/-! ### The decision -/

/-- The level that counts for a rule with the given level: the first of the two levels that is not empty, or hard. -/
def countingLevel (own default : String) : String :=
  if own ≠ "" then own else if default ≠ "" then default else "hard"

/-- The judgement of a verdict, where the primary rule judges as given. -/
def judgementBy : Verdict → (primary : String) → String
  | .no, _ => "Infeasible"
  | .qualified, primary => primary
  | .advisory, primary => if primary = "" then "Advisory flags present" else primary
  | .yes, _ => "No hard infeasibility triggered"

/-- What a ruleset decides on some fields. -/
structure Decides (r : Ruleset) (fields : OrderedMap Value) (d : Decision) : Prop where
  triggered : d.triggered = (r.rules.filter fun rule => (r.mismatch rule fields).isNone).map r.cite
  severity : ∀ ref ∈ d.triggered,
    ref.severity = .soft ↔ lowerText (stripText (countingLevel ref.level r.defaults.level)) = "soft"
  hard : d.triggeredHard = d.triggered.filter (·.severity ≠ .soft)
  soft : d.triggeredSoft = d.triggered.filter (·.severity = .soft)
  parts : (d.triggeredSoft ++ d.triggeredHard).Perm d.triggered
  verdict : d.verdict =
    if ∃ ref ∈ d.triggeredHard, lowerText ref.judgement = "infeasible" then .no
    else if d.triggeredHard ≠ [] then .qualified
    else if d.triggeredSoft ≠ [] then .advisory
    else .yes
  tier : d.tier.verdict = d.verdict
  primary : d.primary = (r.rules.find? (r.eligible fields d.tier)).map r.cite
  primary_none : d.primary = none ↔ d.verdict = .yes
  judgement : d.judgement = judgementBy d.verdict ((d.primary.map (·.judgement)).getD "")

theorem levelOf_eq (r : Ruleset) (rule : Rule) :
    r.levelOf rule = countingLevel (rule.level.getD "") r.defaults.level := by
  unfold levelOf firstFilled countingLevel
  by_cases h₁ : rule.level.getD "" = ""
  · by_cases h₂ : r.defaults.level = ""
    · simp [h₁, h₂, Severity.name]
    · simp [h₁, h₂]
  · simp [h₁]

theorem severityOf_eq_soft_iff {r : Ruleset} {rule : Rule} : r.severityOf rule = .soft ↔
    lowerText (stripText (countingLevel (rule.level.getD "") r.defaults.level)) = "soft" := by
  rw [severityOf, levelOf_eq, show Severity.soft.name = "soft" from rfl]
  split
  · rename_i h
    simp [h]
  · rename_i h
    simp [h]

theorem severity_cite (r : Ruleset) (rule : Rule) : (r.cite rule).severity = r.severityOf rule := by
  simp only [cite]

/-- The tier that is selected says which hard and soft rules there are. -/
theorem verdict_select (hard soft : List Rule) : (select hard soft).1.verdict =
    if ∃ rule ∈ hard, rule.isInfeasible = true then .no
    else if hard ≠ [] then .qualified
    else if soft ≠ [] then .advisory
    else .yes := by
  have hinfeasible : candidate hard soft .hardInfeasible = none → ¬ ∃ rule ∈ hard, rule.isInfeasible = true := by
    rintro h ⟨rule, hrule, htrue⟩
    rw [candidate_hardInfeasible_eq_none_iff] at h
    rw [h rule hrule] at htrue
    cases htrue
  rcases select_cases hard soft with ⟨rule, hc, hs⟩ | ⟨h₁, rule, hc, hs⟩ | ⟨h₁, h₂, rule, hc, hs⟩ | ⟨h₁, h₂, h₃, hs⟩
  · rw [hs, if_pos ⟨rule, List.mem_of_find?_eq_some hc, List.find?_some hc⟩]
    rfl
  · rw [hs, if_neg (hinfeasible h₁), if_pos (ne_nil_of_candidate_hardOther hc)]
    rfl
  · have hsoft : soft ≠ [] := by
      rintro rfl
      cases hc
    rw [hs, if_neg (hinfeasible h₁), if_neg (not_not_intro (hard_eq_nil h₁ h₂)), if_pos hsoft]
    rfl
  · rw [hs, if_neg (hinfeasible h₁), if_neg (not_not_intro (hard_eq_nil h₁ h₂)),
      if_neg (not_not_intro (candidate_soft_eq_none_iff.1 h₃))]
    rfl

/-- The candidate of the selected tier is selected, and there is one except for the last tier. -/
theorem select_snd (hard soft : List Rule) : (select hard soft).2 = candidate hard soft (select hard soft).1 ∧
    ((select hard soft).2 = none ↔ (select hard soft).1 = .none) := by
  rcases select_cases hard soft with ⟨rule, hc, hs⟩ | ⟨-, rule, hc, hs⟩ | ⟨-, -, rule, hc, hs⟩ | ⟨-, -, -, hs⟩
  · simp [hs, hc]
  · simp [hs, hc]
  · simp [hs, hc]
  · simp [hs, candidate]

theorem judgementOf_eq {tier : Tier} {primary : Option Rule} (h : primary = none ↔ tier = .none) :
    judgementOf tier primary = judgementBy tier.verdict ((primary.map (·.judgement)).getD "") := by
  cases tier <;> cases primary <;> simp_all [judgementOf, judgementBy, Tier.verdict]

section
variable (r : Ruleset) (fields : OrderedMap Value) (derivations : List Derivation)

theorem decide_triggered : (r.decide fields derivations).triggered = (r.triggered fields).map r.cite := rfl

theorem decide_triggeredHard :
    (r.decide fields derivations).triggeredHard = (r.triggeredHard fields).map r.cite := rfl

theorem decide_triggeredSoft :
    (r.decide fields derivations).triggeredSoft = (r.triggeredSoft fields).map r.cite := rfl

theorem severity_cite_eq_soft_iff (rule : Rule) : (r.cite rule).severity = .soft ↔
    lowerText (stripText (countingLevel (r.cite rule).level r.defaults.level)) = "soft" := by
  rw [severity_cite]
  exact severityOf_eq_soft_iff

theorem decide_verdict : (r.decide fields derivations).verdict =
    if ∃ ref ∈ (r.decide fields derivations).triggeredHard, lowerText ref.judgement = "infeasible" then .no
    else if (r.decide fields derivations).triggeredHard ≠ [] then .qualified
    else if (r.decide fields derivations).triggeredSoft ≠ [] then .advisory
    else .yes := by
  have hinfeasible : (∃ ref ∈ (r.triggeredHard fields).map r.cite, lowerText ref.judgement = "infeasible") ↔
      ∃ rule ∈ r.triggeredHard fields, rule.isInfeasible = true := by
    constructor
    · rintro ⟨ref, href, hj⟩
      obtain ⟨rule, hrule, rfl⟩ := List.mem_map.1 href
      exact ⟨rule, hrule, decide_eq_true hj⟩
    · rintro ⟨rule, hrule, hj⟩
      exact ⟨_, List.mem_map_of_mem hrule, of_decide_eq_true hj⟩
  rw [decide_triggeredHard, decide_triggeredSoft]
  simp only [hinfeasible, ne_eq, List.map_eq_nil_iff]
  exact verdict_select (r.triggeredHard fields) (r.triggeredSoft fields)

theorem decide_primary : (r.decide fields derivations).primary =
    (r.rules.find? (r.eligible fields (r.decide fields derivations).tier)).map r.cite := by
  rw [← candidate_eq_find?]
  exact congrArg (Option.map r.cite) (select_snd _ _).1

theorem decide_primary_eq_none_iff :
    (r.decide fields derivations).primary = none ↔ (r.decide fields derivations).verdict = .yes := by
  have hnone := (select_snd (r.triggeredHard fields) (r.triggeredSoft fields)).2
  have hverdict : ∀ tier : Tier, tier.verdict = .yes ↔ tier = .none := by
    intro tier
    cases tier <;> decide
  exact (Option.map_eq_none_iff.trans hnone).trans (hverdict _).symm

theorem decide_judgement : (r.decide fields derivations).judgement =
    judgementBy (r.decide fields derivations).verdict
      (((r.decide fields derivations).primary.map (·.judgement)).getD "") := by
  obtain ⟨-, hnone⟩ := select_snd (r.triggeredHard fields) (r.triggeredSoft fields)
  have hmap : (r.decide fields derivations).primary.map (·.judgement) =
      (select (r.triggeredHard fields) (r.triggeredSoft fields)).2.map (·.judgement) := Option.map_map ..
  rw [hmap]
  exact judgementOf_eq hnone

end

theorem decide_decides (r : Ruleset) (fields : OrderedMap Value) (derivations : List Derivation) :
    r.Decides fields (r.decide fields derivations) where
  triggered := rfl
  severity := by
    intro ref href
    obtain ⟨rule, -, rfl⟩ := List.mem_map.1 href
    exact severity_cite_eq_soft_iff r rule
  hard := by
    rw [decide_triggered, decide_triggeredHard, triggeredHard, List.filter_map]
    refine congrArg (List.map r.cite) (List.filter_congr fun rule _ => ?_)
    simp [isSoft, severity_cite]
  soft := by
    rw [decide_triggered, decide_triggeredSoft, triggeredSoft, List.filter_map]
    refine congrArg (List.map r.cite) (List.filter_congr fun rule _ => ?_)
    simp [isSoft, severity_cite]
  parts := by
    rw [decide_triggered, decide_triggeredHard, decide_triggeredSoft, ← List.map_append]
    exact (List.filter_append_perm _ _).map _
  verdict := decide_verdict r fields derivations
  tier := rfl
  primary := decide_primary r fields derivations
  primary_none := decide_primary_eq_none_iff r fields derivations
  judgement := decide_judgement r fields derivations

/-! ### What a decision depends on -/

/-- Fields that rules do not test have no part in a decision. -/
theorem decide_congr {r : Ruleset} {f g : OrderedMap Value} (h : r.Agree f g) (derivations : List Derivation) :
    r.decide f derivations = r.decide g derivations := by
  simp only [decide, triggered_congr h]

/-- Submissions that agree on the fields which the rules test match the same rules, for the same reasons where they do
    not, and get the same decision, also under a ruleset that declares other names. -/
theorem only_tested_fields_matter (r : Ruleset) (f g : OrderedMap Value) (h : r.Agree f g)
    (aliases : OrderedMap (List String)) :
    (∀ rule ∈ r.rules, ({ r with aliases }).mismatch rule g = r.mismatch rule f) ∧
      ∀ derivations, ({ r with aliases }).decide g derivations = r.decide f derivations := by
  constructor
  · intro rule hrule
    exact (mismatch_congr h hrule).symm
  · intro derivations
    exact (decide_congr h derivations).symm

/-- A ruleset with a scale that refuses the second of its levels. -/
def staged : Ruleset :=
  ⟨"", "", "", .standard, .ofList [("Stage", ["Phase"])], .ofList [("Phase", ["0", "Beta"])],
    [⟨"R1", "", "", "", none, [.comparison "Phase" .lt (.text "beta"), .unparsed "later" .empty], .none, none, none,
      .empty⟩], .empty⟩

/-- The same phase as an integer and as a floating point number, between other fields. -/
theorem only_tested_fields_matter_zero :
    let f : OrderedMap Value := .ofList [("Phase", .int 0), ("Stage", .text "x")]
    let g : OrderedMap Value := .ofList [("Rating.A", .null), ("Phase", .number (.real (.finite true 0)))]
    staged.Agree f g ∧ (∀ rule ∈ staged.rules, ({ staged with aliases := .empty }).mismatch rule g = some .unparsed) ∧
      ({ staged with aliases := .empty }).decide g [] = staged.decide f [] := by
  intro f g
  have hagree : staged.Agree f g := by
    intro rule hrule field htests
    obtain rfl := List.mem_singleton.1 hrule
    obtain ⟨op, value, hcondition⟩ := htests
    simp only [List.mem_cons, Condition.comparison.injEq, reduceCtorEq, List.not_mem_nil, or_false] at hcondition
    obtain rfl := hcondition.1
    exact .some (.numbers (by decide +kernel))
  obtain ⟨hmismatch, hdecide⟩ := only_tested_fields_matter staged f g hagree .empty
  refine ⟨hagree, fun rule hrule => (hmismatch rule hrule).trans ?_, hdecide []⟩
  obtain rfl := List.mem_singleton.1 hrule
  decide +kernel

end Ruleset
end Appraisal
