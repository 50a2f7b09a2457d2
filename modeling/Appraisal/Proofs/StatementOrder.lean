import Appraisal.Proofs.Appraise
import Appraisal.Proofs.Decision
import Appraisal.Proofs.Rating
import Appraisal.Proofs.Submission.Bindings

/-! The order of statements. Where no two assignments have the same canonical name, programs with the same statements in
    another order have the same fields in another order (`fields_perm`). Rules see the value of each field only, and
    the derived values count ratings; so the order shows in the remarks and in the contributors and nowhere else
    (`decidedOn_reordered`), and without ratings nowhere at all. -/

namespace Appraisal

/-! ### What the order may change -/

/-- A derived value, and the same one with its contributors in another order. -/
structure Derivation.Reordered (d e : Derivation) : Prop where
  name : d.name = e.name
  value : d.value = e.value
  contributors : Option.Rel List.Perm d.contributors e.contributors

/-- The same remarks in some order, and the same derived values. -/
structure Rating.Reordered (ds es : List Derivation) : Prop where
  warnings : (ds.filter (·.isWarning)).Perm (es.filter (·.isWarning))
  values : List.Forall₂ Derivation.Reordered (ds.filter (!·.isWarning)) (es.filter (!·.isWarning))

/-- The same decision, from ratings in another order. -/
structure Decision.Reordered (d e : Decision) : Prop where
  verdict : d.verdict = e.verdict
  judgement : d.judgement = e.judgement
  tier : d.tier = e.tier
  primary : d.primary = e.primary
  triggered : d.triggered = e.triggered
  triggeredHard : d.triggeredHard = e.triggeredHard
  triggeredSoft : d.triggeredSoft = e.triggeredSoft
  derivations : Rating.Reordered d.derivations e.derivations

variable {f g : OrderedMap Value}

namespace Rating

theorem tally_reordered {cs ds : List Contributor} (h : cs.Perm ds) :
    Derivation.Reordered (.tally cs) (.tally ds) where
  name := rfl
  value := by rw [Derivation.tally, Derivation.tally, h.length_eq]
  contributors := .some h

theorem criticalFlag_reordered {cs ds : List Contributor} (h : cs.Perm ds) :
    Derivation.Reordered (.criticalFlag cs) (.criticalFlag ds) where
  name := rfl
  value := by rw [Derivation.criticalFlag, Derivation.criticalFlag, h.any_eq]
  contributors := .none

theorem derive_reordered (v : Vocabulary) (h : f.entries.Perm g.entries) :
    Reordered (derive v f).2 (derive v g).2 := by
  have hratings := ratings_perm h
  by_cases hrated : ratings f = []
  · rw [derive_of_unrated v hrated, derive_of_unrated v ((ratings_eq_nil_iff_of_perm h).1 hrated)]
    exact ⟨.nil, .nil⟩
  · rw [derive_of_rated v hrated, derive_of_rated v (mt (ratings_eq_nil_iff_of_perm h).2 hrated)]
    have hcontributors : (contributors (ratings f)).Perm (contributors (ratings g)) := hratings.filterMap _
    constructor
    · rw [filter_isWarning_derivations, filter_isWarning_derivations]
      exact hratings.filterMap _
    · rw [filter_not_isWarning_derivations, filter_not_isWarning_derivations]
      exact .cons (tally_reordered hcontributors) (.cons (criticalFlag_reordered hcontributors) .nil)

end Rating

/-! ### Decisions -/

namespace Ruleset
open Submission Grammar

/-- Fields in another order are decided on alike. -/
theorem decidedOn_reordered (r : Ruleset) (h : f.entries.Perm g.entries) :
    (r.decidedOn f).Reordered (r.decidedOn g) := by
  have hsame : r.decidedOn f = r.decide (Rating.derive r.vocabulary g).1 (Rating.derive r.vocabulary f).2 :=
    decide_congr (agree_of_get? (Rating.get?_derive_of_perm r.vocabulary h)) _
  rw [hsame]
  exact ⟨rfl, rfl, rfl, rfl, rfl, rfl, rfl, Rating.derive_reordered r.vocabulary h⟩

theorem decidedOn_eq_of_unrated (r : Ruleset) (h : f.entries.Perm g.entries) (hrated : Rating.ratings f = []) :
    r.decidedOn f = r.decidedOn g := by
  rw [decidedOn, decidedOn, Rating.derive_of_unrated _ hrated,
    Rating.derive_of_unrated _ ((Rating.ratings_eq_nil_iff_of_perm h).1 hrated)]
  exact decide_congr (agree_of_get? (OrderedMap.get?_perm h)) []

/-! ### Programs -/

variable {v : Vocabulary} {ss₁ ss₂ : List Statement}

/-- Statements in another order make the same fields in another order, if no two of them assign to the same name. -/
theorem fields_perm (hperm : ss₁.Perm ss₂)
    (hdistinct : ((ss₁.filterMap Statement.binding?).map fun e => v.resolve e.1).Nodup) :
    (Program.fields v ss₁).entries.Perm (Program.fields v ss₂).entries := by
  have hbindings : ((ss₁.filterMap Statement.binding?).map v.rename).Perm
      ((ss₂.filterMap Statement.binding?).map v.rename) := (hperm.filterMap _).map _
  have hkeys : (((ss₁.filterMap Statement.binding?).map v.rename).map Prod.fst).Nodup := by
    rw [List.map_map]
    exact hdistinct
  rw [Program.fields_eq_bindings, Program.fields_eq_bindings, OrderedMap.entries_ofList hkeys,
    OrderedMap.entries_ofList ((hbindings.map Prod.fst).nodup_iff.1 hkeys)]
  exact hbindings

/-- Two programs with the same statements in another order, of which no two assign to the same canonical name, are
    decided on alike: the remarks about ratings and the contributors to the tally may stand in another order, and
    nothing else differs. Where no field is a rating, the texts are appraised alike, ids included. -/
theorem statement_order_irrelevant (r : Ruleset) {text₁ text₂ : List Char} (h₁ : Program.read text₁ = .ok ss₁)
    (h₂ : Program.read text₂ = .ok ss₂) (hne : ss₁ ≠ []) (hperm : ss₁.Perm ss₂)
    (hdistinct : ((ss₁.filterMap Statement.binding?).map fun e => r.vocabulary.resolve e.1).Nodup) :
    ∃ s₁ s₂, ofProgram r.vocabulary text₁ = .ok s₁ ∧ ofProgram r.vocabulary text₂ = .ok s₂ ∧
      (r.decidedOn s₁.fields).Reordered (r.decidedOn s₂.fields) ∧
      ((∀ key ∈ s₁.fields.keys, Rating.isRating key = false) → ∀ now head,
        r.appraise text₁ now head = r.appraise text₂ now head ∧
        (now.InRange → ∃ a, r.appraise text₁ now head = .ok a)) := by
  have hfields := fields_perm hperm hdistinct
  have hread₁ := read_of_program r.vocabulary h₁ hne
  have hread₂ := read_of_program r.vocabulary h₂ fun hnil => hne (hnil ▸ hperm).eq_nil
  refine ⟨_, _, Outcome.map_eq_ok_iff.2 ⟨ss₁, h₁, rfl⟩, Outcome.map_eq_ok_iff.2 ⟨ss₂, h₂, rfl⟩,
    r.decidedOn_reordered hfields, fun hunrated now head => ⟨?_, fun hnow => ?_⟩⟩
  · have hrated : Rating.ratings (Program.fields r.vocabulary ss₁) = [] := List.filter_eq_nil_iff.2 fun e he => by
      rw [hunrated e.1 (List.mem_map_of_mem he)]
      exact Bool.false_ne_true
    exact r.appraise_congr hread₁ hread₂ (r.decidedOn_eq_of_unrated hfields hrated) rfl hperm.any_eq now head
  · obtain ⟨stamp, hstamp⟩ := Citation.Moment.exists_stamp hnow
    rw [r.appraise_of_read hread₁, hstamp]
    exact ⟨_, rfl⟩

/-- A ruleset that stores the tally as a rating and refuses a submission with one rating that counts. -/
def strict : Ruleset :=
  ⟨"", "", "", .standard, .ofList [("Rating.B", ["moderateorworsecount"])], .empty,
    [⟨"R1", "", "", "", none, [.comparison "Rating.B" .ge (.int 1)], ⟨"Infeasible", .empty⟩, none, none, .empty⟩],
    .empty⟩

/-- A program with ratings, of which one is stored where the tally is, and one without, each in two orders. -/
theorem statement_order_irrelevant_swapped :
    (∃ s₁ s₂, ofProgram strict.vocabulary "Rating.A: poor; Rating.B: odd;".toList = .ok s₁ ∧
      ofProgram strict.vocabulary "Rating.B: odd; Rating.A: poor;".toList = .ok s₂ ∧
      (strict.decidedOn s₁.fields).verdict = .no ∧ (strict.decidedOn s₂.fields).verdict = .no) ∧
    ∀ now head, strict.appraise "A: x; eval;".toList now head = strict.appraise "eval; A: x;".toList now head := by
  have hvocabulary : strict.vocabulary =
      .ofList [("moderateorworsecount", "Rating.B"), ("rating.b", "Rating.B")] := by decide +kernel
  constructor
  · let a : Clause := .assign ⟨"Rating", ["A"]⟩ .colon (.path ⟨"poor", []⟩)
    let b : Clause := .assign ⟨"Rating", ["B"]⟩ .colon (.path ⟨"odd", []⟩)
    have h₁ : Program.read "Rating.A: poor; Rating.B: odd;".toList = .ok ([a, b].map Clause.statement) :=
      read_eq_ok_iff_lexes.2 ⟨_, Outcome.map_eq_ok_iff.1 (by decide +kernel),
        by simp [a, b, Clause.Within, Operand.Within], rfl⟩
    have h₂ : Program.read "Rating.B: odd; Rating.A: poor;".toList = .ok ([b, a].map Clause.statement) :=
      read_eq_ok_iff_lexes.2 ⟨_, Outcome.map_eq_ok_iff.1 (by decide +kernel),
        by simp [a, b, Clause.Within, Operand.Within], rfl⟩
    obtain ⟨s₁, s₂, hs₁, hs₂, hdecided, -⟩ := statement_order_irrelevant strict h₁ h₂ (by simp)
      (.swap ..) (by rw [hvocabulary]; decide +kernel)
    have hno : (strict.decidedOn s₁.fields).verdict = .no := by
      rw [ofProgram, h₁] at hs₁
      cases hs₁
      rw [decidedOn, hvocabulary]
      decide +kernel
    exact ⟨s₁, s₂, hs₁, hs₂, hno, hdecided.verdict.symm.trans hno⟩
  · let a : Clause := .assign ⟨"A", []⟩ .colon (.path ⟨"x", []⟩)
    have h₁ : Program.read "A: x; eval;".toList = .ok ([a, .query .eval].map Clause.statement) :=
      read_eq_ok_iff_lexes.2 ⟨_, Outcome.map_eq_ok_iff.1 (by decide +kernel),
        by simp [a, Clause.Within, Operand.Within], rfl⟩
    have h₂ : Program.read "eval; A: x;".toList = .ok ([.query .eval, a].map Clause.statement) :=
      read_eq_ok_iff_lexes.2 ⟨_, Outcome.map_eq_ok_iff.1 (by decide +kernel),
        by simp [a, Clause.Within, Operand.Within], rfl⟩
    obtain ⟨s₁, s₂, hs₁, -, -, hunrated⟩ := statement_order_irrelevant strict h₁ h₂ (by simp)
      (.swap ..) (by rw [hvocabulary]; decide +kernel)
    have hfields : ∀ key ∈ s₁.fields.keys, Rating.isRating key = false := by
      rw [ofProgram, h₁, hvocabulary] at hs₁
      cases hs₁
      decide +kernel
    exact fun now head => (hunrated hfields now head).1

end Ruleset
end Appraisal
