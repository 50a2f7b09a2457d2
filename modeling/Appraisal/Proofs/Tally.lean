import Appraisal.Proofs.Appraise
import Appraisal.Proofs.Decision
import Appraisal.Proofs.Rating
import Appraisal.Proofs.Submission.Bindings

/-! Nobody but the ratings says what the tally is. Where there is a rating, what is submitted under the name of the tally
    has no part in the decision (`decidedAlike_of_without_eq`), and if the vocabulary knows the usual name of the tally,
    every spelling of it is stored under the name of the tally (`resolve_tallyName`). The tally itself may not be
    stored as a rating: there a submitted value would count. -/

namespace Appraisal

open Citation Submission Grammar

/-! ### Spellings -/

namespace Rating
variable {v : Vocabulary}

/-- What is bound under other names than those of the tally. -/
def besidesTally (v : Vocabulary) (es : List (String × Value)) : List (String × Value) :=
  es.filter fun e => v.resolve e.1 ≠ v.resolve Derivation.tallyName

theorem resolve_tallyName (h : (v.get? "moderateorworsecount").isSome = true) :
    v.resolve Derivation.tallyName = tallyField v := by
  obtain ⟨c, hc⟩ := Option.isSome_iff_exists.1 h
  have hkey : Vocabulary.lookupKey Derivation.tallyName = "moderateorworsecount" := by decide +kernel
  rw [Vocabulary.resolve, hkey, tallyField, tallySpellings, List.findSome?_cons, hc]

/-- A text that binds the name of a rating has a rating among its fields. -/
theorem ratings_ne_nil {es : List (String × Value)} (h : ∃ e ∈ es, isRating (v.resolve e.1) = true) :
    ratings (.ofList (es.map v.rename)) ≠ [] := by
  obtain ⟨e, he, hrating⟩ := h
  have hkey : v.resolve e.1 ∈ (OrderedMap.ofList (es.map v.rename)).keys := by
    rw [OrderedMap.keys_ofList, List.mem_eraseDups, List.map_map]
    exact List.mem_map.2 ⟨e, he, rfl⟩
  obtain ⟨e', he', hsame⟩ := List.mem_map.1 hkey
  exact List.ne_nil_of_mem (List.mem_filter.2 ⟨he', hsame ▸ hrating⟩)

end Rating

theorem Vocabulary.without_ofList (v : Vocabulary) (key : String) (es : List (String × Value)) :
    (OrderedMap.ofList (es.map v.rename)).without key = .ofList ((es.filter (v.resolve ·.1 ≠ key)).map v.rename) := by
  rw [OrderedMap.without, OrderedMap.filterKeys_ofList, List.filter_map]
  rfl

/-! ### Decisions -/

namespace Ruleset

/-- The same is derived from two submissions, and the same is decided on them, ids included. -/
structure DecidedAlike (r : Ruleset) (f g : OrderedMap Value) : Prop where
  derivations : (Rating.derive r.vocabulary f).2 = (Rating.derive r.vocabulary g).2
  values : ∀ key, (Rating.derive r.vocabulary f).1.get? key = (Rating.derive r.vocabulary g).1.get? key
  decision : r.decidedOn f = r.decidedOn g
  trace : ∀ now head, trace (r.decidedOn f) r now head = trace (r.decidedOn g) r now head

variable {r : Ruleset} {f g : OrderedMap Value}

theorem decidedAlike_of_without_eq (hfield : Rating.isRating (Rating.tallyField r.vocabulary) = false)
    (hrated : Rating.ratings f ≠ [])
    (h : f.without (Rating.tallyField r.vocabulary) = g.without (Rating.tallyField r.vocabulary)) :
    r.DecidedAlike f g := by
  obtain ⟨hderivations, hvalues⟩ := Rating.derive_of_without_eq hfield hrated h
  have hdecision : r.decidedOn f = r.decidedOn g := by
    rw [decidedOn, decidedOn, hderivations]
    exact decide_congr (agree_of_get? hvalues) _
  exact ⟨hderivations, hvalues, hdecision, fun now head => by rw [hdecision]⟩

/-- What a submission says under the name of the tally makes no difference where there is a rating, and deriving again
    changes nothing. If the vocabulary knows the usual name of the tally, every spelling of it stands for the name of
    the tally; so texts that differ in such bindings only, of which one binds a rating, get the same decision and the
    same trace. -/
theorem tally_not_forged (r : Ruleset) (hfield : Rating.isRating (Rating.tallyField r.vocabulary) = false) :
    (∀ f g : OrderedMap Value, Rating.ratings f ≠ [] →
      f.without (Rating.tallyField r.vocabulary) = g.without (Rating.tallyField r.vocabulary) → r.DecidedAlike f g) ∧
    (∀ f, Rating.derive r.vocabulary (Rating.derive r.vocabulary f).1 = Rating.derive r.vocabulary f) ∧
    ((r.vocabulary.get? "moderateorworsecount").isSome = true →
      (∀ name, r.vocabulary.resolve name = r.vocabulary.resolve Derivation.tallyName →
        r.vocabulary.resolve name = Rating.tallyField r.vocabulary) ∧
      ∀ text₁ text₂ es₁ es₂, bindings text₁ = .ok es₁ → bindings text₂ = .ok es₂ →
        (∃ e ∈ es₁, Rating.isRating (r.vocabulary.resolve e.1) = true) →
        Rating.besidesTally r.vocabulary es₁ = Rating.besidesTally r.vocabulary es₂ →
        ∃ s₁ s₂, Submission.read r.vocabulary text₁ = .ok s₁ ∧ Submission.read r.vocabulary text₂ = .ok s₂ ∧
          r.decided s₁ = r.decided s₂ ∧
          ∀ now head, (r.appraise text₁ now head).map (·.trace) = (r.appraise text₂ now head).map (·.trace)) := by
  refine ⟨fun f g hrated h => decidedAlike_of_without_eq hfield hrated h, Rating.derive_derive hfield, fun hknown => ?_⟩
  have hname := Rating.resolve_tallyName hknown
  refine ⟨fun name h => h.trans hname, fun text₁ text₂ es₁ es₂ h₁ h₂ hrated hothers => ?_⟩
  obtain ⟨s₁, hs₁, hfields₁⟩ := exists_of_bindings r.vocabulary h₁
  obtain ⟨s₂, hs₂, hfields₂⟩ := exists_of_bindings r.vocabulary h₂
  have hwithout : s₁.fields.without (Rating.tallyField r.vocabulary) =
      s₂.fields.without (Rating.tallyField r.vocabulary) := by
    rw [hfields₁, hfields₂, Vocabulary.without_ofList, Vocabulary.without_ofList, ← hname]
    exact congrArg (fun es => OrderedMap.ofList (es.map r.vocabulary.rename)) hothers
  have halike := decidedAlike_of_without_eq hfield (hfields₁ ▸ Rating.ratings_ne_nil hrated) hwithout
  have hdecided : r.decided s₁ = r.decided s₂ := halike.decision
  refine ⟨s₁, s₂, hs₁, hs₂, hdecided, fun now head => ?_⟩
  rw [r.appraise_of_read hs₁, r.appraise_of_read hs₂]
  cases now.stamp with
  | error e => rfl
  | ok stamp => simp only [Except.map, appraised, hdecided]

/-- A ruleset that refuses a tally of one. -/
def counting : Ruleset :=
  ⟨"", "", "", .standard, .ofList [("Tally", ["moderateorworsecount"])], .empty,
    [⟨"R1", "", "", "", none, [.comparison "Tally" .ge (.int 1)], ⟨"Infeasible", .empty⟩, none, none, .empty⟩], .empty⟩

/-- A tally that is submitted beside a rating, before it and after it, in the fields and in a text. -/
theorem tally_not_forged_refused :
    counting.DecidedAlike (.ofList [("Tally", .int 0), ("Rating.A", .text "poor")])
      (.ofList [("Rating.A", .text "poor"), ("Tally", .null)]) ∧
    ∃ s₁ s₂, Submission.read counting.vocabulary "TALLY: none; Rating.A: poor;".toList = .ok s₁ ∧
      Submission.read counting.vocabulary "Rating.A: poor;".toList = .ok s₂ ∧ s₁.fields.keys = ["Tally", "Rating.A"] ∧
      (counting.decided s₂).verdict = .no ∧ counting.decided s₁ = counting.decided s₂ := by
  have hvocabulary : counting.vocabulary =
      .ofList [("moderateorworsecount", "Tally"), ("tally", "Tally")] := by decide +kernel
  have hfield : Rating.tallyField counting.vocabulary = "Tally" := by
    rw [hvocabulary]
    decide +kernel
  obtain ⟨hfields, -, htexts⟩ := tally_not_forged counting (by rw [hfield]; decide +kernel)
  constructor
  · refine hfields _ _ (by decide +kernel) ?_
    rw [hfield]
    exact OrderedMap.ext rfl
  · let tally : Clause := .assign ⟨"TALLY", []⟩ .colon (.path ⟨"none", []⟩)
    let rating : Clause := .assign ⟨"Rating", ["A"]⟩ .colon (.path ⟨"poor", []⟩)
    have h₁ : Program.read "TALLY: none; Rating.A: poor;".toList = .ok ([tally, rating].map Clause.statement) :=
      read_eq_ok_iff_lexes.2 ⟨_, Outcome.map_eq_ok_iff.1 (by decide +kernel),
        by simp [tally, rating, Clause.Within, Operand.Within], rfl⟩
    have h₂ : Program.read "Rating.A: poor;".toList = .ok ([rating].map Clause.statement) :=
      read_eq_ok_iff_lexes.2 ⟨_, Outcome.map_eq_ok_iff.1 (by decide +kernel),
        by simp [rating, Clause.Within, Operand.Within], rfl⟩
    have hname : ∀ e ∈ [("TALLY", "Tally"), ("Rating.A", "Rating.A"), (Derivation.tallyName, "Tally")],
        counting.vocabulary.resolve e.1 = e.2 := by
      rw [hvocabulary]
      decide +kernel
    simp only [List.forall_mem_cons] at hname
    obtain ⟨htally, hrating, husual, -⟩ := hname
    have hrated : ∃ e ∈ ([tally, rating].map Clause.statement).filterMap Statement.binding?,
        Rating.isRating (counting.vocabulary.resolve e.1) = true :=
      ⟨("Rating.A", _), .tail _ (.head _), by rw [hrating]; decide +kernel⟩
    obtain ⟨s₁, s₂, hs₁, hs₂, hsame, -⟩ := (htexts (by rw [hvocabulary]; decide +kernel)).2 _ _ _ _
      (bindings_of_program h₁ (by simp)) (bindings_of_program h₂ (by simp)) hrated
      (by simp [Rating.besidesTally, tally, rating, Clause.statement, Statement.binding?, Path.names, htally, hrating,
        husual])
    refine ⟨s₁, s₂, hs₁, hs₂, ?_, ?_, hsame⟩
    · rw [read_of_program _ h₁ (by simp), hvocabulary] at hs₁
      cases hs₁
      decide +kernel
    · rw [read_of_program _ h₂ (by simp)] at hs₂
      cases hs₂
      rw [decided, hvocabulary]
      decide +kernel

end Ruleset
end Appraisal
