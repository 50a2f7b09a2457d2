import Appraisal.Proofs.OrderedMap
import Appraisal.Rating.Basic

/-! What is derived from ratings. It depends on the ratings alone, and the tally is put among the fields whatever was
    there before (`derive_of_rated`). So if the tally is not stored as a rating, its place among the submitted fields
    makes no difference (`derive_of_without_eq`), and deriving twice is deriving once (`derive_derive`). -/

namespace Appraisal.Rating

variable {v : Vocabulary} {f g : OrderedMap Value}

/-- The ratings that count, in the order of the fields. -/
def contributors (rated : List (String × Value)) : List Contributor := rated.filterMap contributor?

/-- What is derived from some ratings, at least one: the remarks about them, and the two values. -/
def derivations (rated : List (String × Value)) : List Derivation :=
  rated.filterMap warning? ++ [.tally (contributors rated), .criticalFlag (contributors rated)]

theorem derive_of_unrated (v : Vocabulary) (h : ratings f = []) : derive v f = (f, []) := by
  simp only [derive, h, List.isEmpty_nil, if_true]

theorem derive_of_rated (v : Vocabulary) (h : ratings f ≠ []) : derive v f =
    (f.put (tallyField v) (.int (contributors (ratings f)).length), derivations (ratings f)) := by
  rw [derive, if_neg (by simpa using h)]
  rfl

theorem isWarning_of_mem {rated : List (String × Value)} {d : Derivation} (h : d ∈ rated.filterMap warning?) :
    d.isWarning = true := by
  obtain ⟨e, -, he⟩ := List.mem_filterMap.1 h
  unfold warning? at he
  dsimp only at he
  split at he <;> cases he
  rfl

theorem filter_isWarning_derivations (rated : List (String × Value)) :
    (derivations rated).filter (·.isWarning) = rated.filterMap warning? := by
  rw [derivations, List.filter_append, List.filter_eq_self.2 fun d => isWarning_of_mem]
  exact List.append_nil _

theorem filter_not_isWarning_derivations (rated : List (String × Value)) :
    (derivations rated).filter (!·.isWarning) = [.tally (contributors rated), .criticalFlag (contributors rated)] := by
  have hwarnings : ∀ d ∈ rated.filterMap warning?, ¬ (!d.isWarning) = true := fun d hd => by
    rw [isWarning_of_mem hd]
    exact Bool.false_ne_true
  rw [derivations, List.filter_append, List.filter_eq_nil_iff.2 hwarnings]
  rfl

/-! ### The ratings of changed fields -/

theorem ratings_perm (h : f.entries.Perm g.entries) : (ratings f).Perm (ratings g) := h.filter _

theorem ratings_eq_nil_iff_of_perm (h : f.entries.Perm g.entries) : ratings f = [] ↔ ratings g = [] := by
  rw [← List.length_eq_zero_iff, (ratings_perm h).length_eq, List.length_eq_zero_iff]

theorem ratings_without {key : String} (h : isRating key = false) : ratings (f.without key) = ratings f := by
  rw [ratings, OrderedMap.without, OrderedMap.filterKeys, List.filter_filter]
  refine List.filter_congr fun e _ => ?_
  by_cases he : e.1 = key <;> simp [he, h]

theorem ratings_put {key : String} (h : isRating key = false) (x : Value) : ratings (f.put key x) = ratings f := by
  rw [← ratings_without h, OrderedMap.without_put, ratings_without h]

/-! ### Deriving from changed fields -/

/-- Fields that differ in the tally only have the same derivations, and the same values when the tally is put among them. -/
theorem derive_of_without_eq (hfield : isRating (tallyField v) = false) (hrated : ratings f ≠ [])
    (h : f.without (tallyField v) = g.without (tallyField v)) :
    (derive v f).2 = (derive v g).2 ∧ ∀ key, (derive v f).1.get? key = (derive v g).1.get? key := by
  have hsame : ratings f = ratings g := by rw [← ratings_without hfield, h, ratings_without hfield]
  rw [derive_of_rated v hrated, derive_of_rated v (hsame ▸ hrated), hsame]
  refine ⟨rfl, fun key => ?_⟩
  rw [OrderedMap.get?_put, OrderedMap.get?_put]
  split
  · rfl
  · rename_i hkey
    rw [← OrderedMap.get?_without f hkey, h, OrderedMap.get?_without g hkey]

theorem derive_derive (hfield : isRating (tallyField v) = false) (f : OrderedMap Value) :
    derive v (derive v f).1 = derive v f := by
  by_cases hrated : ratings f = []
  · rw [derive_of_unrated v hrated, derive_of_unrated v hrated]
  · rw [derive_of_rated v hrated]
    generalize hx : Value.int (contributors (ratings f)).length = x
    have hsame : ratings (f.put (tallyField v) x) = ratings f := ratings_put hfield x
    have hx' : (f.put (tallyField v) x).get? (tallyField v) = some x := by simp
    dsimp only
    rw [derive_of_rated v (hsame ▸ hrated), hsame, hx, OrderedMap.put_of_get? hx']

/-- Fields in another order have the same values when the tally is put among them. -/
theorem get?_derive_of_perm (v : Vocabulary) (h : f.entries.Perm g.entries) (key : String) :
    (derive v f).1.get? key = (derive v g).1.get? key := by
  by_cases hrated : ratings f = []
  · rw [derive_of_unrated v hrated, derive_of_unrated v ((ratings_eq_nil_iff_of_perm h).1 hrated)]
    exact OrderedMap.get?_perm h key
  · have hlength : (contributors (ratings f)).length = (contributors (ratings g)).length :=
      ((ratings_perm h).filterMap _).length_eq
    rw [derive_of_rated v hrated, derive_of_rated v (mt (ratings_eq_nil_iff_of_perm h).2 hrated), OrderedMap.get?_put,
      OrderedMap.get?_put, hlength, OrderedMap.get?_perm h]

end Appraisal.Rating
