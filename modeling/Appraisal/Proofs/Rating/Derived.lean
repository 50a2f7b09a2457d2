import Appraisal.Proofs.Rating

/-! What is derived, rating by rating. A rating whose level does not exist is remarked on, one whose level is moderate or
    worse counts towards the tally, and no rating is in both (`length_counted_add_length_unknown_le`). The tally takes
    the place of what was stored under its name, or the last one (`derive_of_ratings`). -/

namespace Appraisal

/-! ### Levels by their names -/

namespace RatingLevel

/-- The names of the levels, the best first. -/
def names : List String := ["excellent", "good", "fair", "moderate", "poor", "major", "critical"]

/-- The names of the levels that count towards the tally. -/
def countedNames : List String := ["moderate", "poor", "major", "critical"]

theorem ofName?_name (l : RatingLevel) : ofName? l.name = some l := by
  cases l <;> rfl

theorem ofName?_eq_some_iff {name : String} {l : RatingLevel} : ofName? name = some l ↔ l.name = name := by
  constructor
  · intro h
    rw [ofName?] at h
    simpa using List.find?_some h
  · rintro rfl
    exact ofName?_name l

theorem ofName?_eq_none_iff {name : String} : ofName? name = none ↔ name ∉ names := by
  have hnames : names = all.map RatingLevel.name := rfl
  simp only [ofName?, List.find?_eq_none, beq_iff_eq, hnames, List.mem_map, not_exists, not_and]

theorem isModerateOrWorse_iff {l : RatingLevel} : l.isModerateOrWorse = true ↔ l.name ∈ countedNames := by
  cases l <;> decide

end RatingLevel

namespace Rating
open RatingLevel

/-! ### Ratings that count, and ratings of no level -/

def counts (e : String × Value) : Bool := nameIn e.2 ∈ countedNames

def isUnknown (e : String × Value) : Bool := nameIn e.2 ∉ names

def remark (e : String × Value) : Derivation := .warning e.1 (nameIn e.2)

def contributor (e : String × Value) : Contributor := ⟨e.1, nameIn e.2⟩

theorem not_counts_of_isUnknown {e : String × Value} (h : isUnknown e = true) : counts e = false := by
  have hsubset : countedNames ⊆ names := by decide
  exact decide_eq_false fun hcounts => of_decide_eq_true h (hsubset hcounts)

theorem warning?_eq (e : String × Value) : warning? e = (Option.guard isUnknown e).map remark := by
  rw [Option.map_guard, isUnknown]
  simp only [warning?, Option.isNone_iff_eq_none, ofName?_eq_none_iff, decide_eq_true_eq, remark]

theorem contributor?_eq (e : String × Value) : contributor? e = (Option.guard counts e).map contributor := by
  rw [Option.map_guard]
  unfold contributor?
  dsimp only
  split
  · rename_i l hl
    have hcounts : l.isModerateOrWorse = counts e := by
      rw [Bool.eq_iff_iff, isModerateOrWorse_iff, ofName?_eq_some_iff.1 hl, counts, decide_eq_true_iff]
    rw [hcounts]
    rfl
  · rename_i hnone
    have hunknown : isUnknown e = true := decide_eq_true (ofName?_eq_none_iff.1 hnone)
    rw [if_neg (by rw [not_counts_of_isUnknown hunknown]; exact Bool.false_ne_true)]

theorem filterMap_warning? (rated : List (String × Value)) :
    rated.filterMap warning? = (rated.filter isUnknown).map remark := by
  rw [← List.filterMap_eq_filter, List.map_filterMap]
  exact congrArg (List.filterMap · rated) (funext warning?_eq)

theorem contributors_eq (rated : List (String × Value)) :
    contributors rated = (rated.filter counts).map contributor := by
  rw [contributors, ← List.filterMap_eq_filter, List.map_filterMap]
  exact congrArg (List.filterMap · rated) (funext contributor?_eq)

theorem any_critical_contributors (rated : List (String × Value)) :
    (contributors rated).any (·.level == critical.name) = rated.any fun e => nameIn e.2 = "critical" := by
  -- Every critical rating is a contributor, so nothing is lost by looking at these only.
  have hcritical : ∀ name, name = "critical" → name ∈ countedNames := by
    rintro _ rfl
    decide
  rw [contributors_eq, List.any_map, List.any_filter]
  refine congrArg (List.any rated) (funext fun e => ?_)
  by_cases h : nameIn e.2 = "critical" <;> simp [counts, contributor, RatingLevel.name, h, hcritical]

theorem length_counted_add_length_unknown_le (rated : List (String × Value)) :
    (rated.filter counts).length + (rated.filter isUnknown).length ≤ rated.length := by
  rw [← List.countP_eq_length_filter, ← List.countP_eq_length_filter, List.length_eq_countP_add_countP counts]
  refine Nat.add_le_add_left (List.countP_mono_left fun e _ h => ?_) _
  rw [not_counts_of_isUnknown h]
  rfl

/-! ### What is derived -/

/-- Of fields without ratings nothing is derived. Where there are ratings, their tally is put among the fields, in the
    place of what was stored under its name or else at the end, and all other bindings stay; the derivations are the
    remarks about ratings of no level, in the order of the fields, the tally with the ratings that count, and whether
    one is critical. -/
theorem derive_of_ratings (v : Vocabulary) (f : OrderedMap Value) :
    (ratings f = [] → derive v f = (f, [])) ∧
    (ratings f ≠ [] →
      let counted := (ratings f).filter fun e => nameIn e.2 ∈ countedNames
      let unknown := (ratings f).filter fun e => nameIn e.2 ∉ names
      (∀ before old after, f.entries = before ++ (tallyField v, old) :: after →
        (derive v f).1.entries = before ++ (tallyField v, .int counted.length) :: after) ∧
      (tallyField v ∉ f.keys → (derive v f).1.entries = f.entries ++ [(tallyField v, .int counted.length)]) ∧
      (∀ key ≠ tallyField v, (derive v f).1.get? key = f.get? key) ∧
      (derive v f).2 = unknown.map (fun e => .warning e.1 (nameIn e.2)) ++
        [⟨"ModerateOrWorseCount", .int counted.length, some (counted.map fun e => ⟨e.1, nameIn e.2⟩)⟩,
          ⟨"AnyCriticalFlag", .bool ((ratings f).any fun e => nameIn e.2 = "critical"), none⟩] ∧
      ((derive v f).2.filter (·.isWarning)).length = unknown.length ∧
      counted.length + unknown.length ≤ (ratings f).length) := by
  refine ⟨derive_of_unrated v, fun hrated => ?_⟩
  have hlength : (contributors (ratings f)).length = ((ratings f).filter counts).length := by
    rw [contributors_eq, List.length_map]
  rw [derive_of_rated v hrated, hlength]
  refine ⟨fun before old after hentries => OrderedMap.entries_put_of_entries hentries _,
    fun hnew => OrderedMap.entries_put_of_not_mem hnew _, fun key hkey => ?_, ?_, ?_,
    length_counted_add_length_unknown_le _⟩
  · rw [OrderedMap.get?_put, if_neg hkey]
  · rw [derivations, filterMap_warning?, Derivation.criticalFlag, any_critical_contributors, Derivation.tally, hlength,
      contributors_eq]
    rfl
  · rw [filter_isWarning_derivations, filterMap_warning?, List.length_map]
    rfl

/-- The name of the tally in a ruleset may be that of any field, also one that was submitted. -/
theorem derive_of_ratings_overwritten :
    let v : Vocabulary := .ofAliases (.ofList [("Tally", ["moderateorworsecount"])])
    let f : OrderedMap Value := .ofList [("Rating.A", .text " Poor"), ("Tally", .null), ("rating.b", .int 3),
      ("RATING.C", .text "CRITICAL ")]
    (derive v f).1.entries = [("Rating.A", .text " Poor"), ("Tally", .int 2), ("rating.b", .int 3),
      ("RATING.C", .text "CRITICAL ")] ∧
    ((derive v f).2.filter (·.isWarning)).length = 1 := by
  intro v f
  have hfield : tallyField v = "Tally" := by decide +kernel
  obtain ⟨-, hrated⟩ := derive_of_ratings v f
  obtain ⟨hplace, -, -, -, hwarnings, -⟩ := hrated (by decide +kernel)
  rw [hfield] at hplace
  refine ⟨(hplace [("Rating.A", .text " Poor")] .null _ rfl).trans ?_, hwarnings.trans ?_⟩
  · rfl
  · rfl

end Rating
end Appraisal
