import Appraisal.Value.Canonical
import Mathlib.Data.List.Nodup

/-! Entries in ascending order of their keys. Where keys are distinct, the order of the entries before does not matter
    (`sortEntries_eq_of_perm`); changing values without regard to the keys goes along with sorting
    (`sortEntries_map`), and the value under one key stands in the same place whatever it is
    (`exists_sortEntries_append`). -/

namespace Appraisal.Value
variable {α β : Type}

theorem sortEntries_perm (es : List (String × α)) : (sortEntries es).Perm es := List.mergeSort_perm es _

theorem pairwise_sortEntries (es : List (String × α)) : (sortEntries es).Pairwise fun a b => a.1 ≤ b.1 := by
  let before : String × α → String × α → Bool := fun a b => a.1 ≤ b.1
  have htrans : ∀ a b c, before a b → before b c → before a c := fun a b c hab hbc =>
    decide_eq_true (String.le_trans (of_decide_eq_true hab) (of_decide_eq_true hbc))
  have htotal : ∀ a b, before a b || before b a := by
    intro a b
    rw [Bool.or_eq_true, decide_eq_true_eq, decide_eq_true_eq]
    exact String.le_total a.1 b.1
  exact (List.pairwise_mergeSort htrans htotal es).imp fun hle => of_decide_eq_true hle

theorem mem_sortEntries {es : List (String × α)} {e : String × α} : e ∈ sortEntries es ↔ e ∈ es :=
  (sortEntries_perm es).mem_iff

theorem eq_of_key_eq {es : List (String × α)} (hkeys : (es.map Prod.fst).Nodup) {a b : String × α} (ha : a ∈ es)
    (hb : b ∈ es) (h : a.1 = b.1) : a = b :=
  List.inj_on_of_nodup_map hkeys ha hb h

/-- Entries in ascending order are the sorted ones, where keys are distinct. -/
theorem sortEntries_eq {es fs : List (String × α)} (hkeys : (es.map Prod.fst).Nodup) (hperm : fs.Perm es)
    (hsorted : fs.Pairwise fun a b => a.1 ≤ b.1) : sortEntries es = fs := by
  refine List.Perm.eq_of_pairwise ?_ (pairwise_sortEntries es) hsorted ((sortEntries_perm es).trans hperm.symm)
  intro a b ha hb hab hba
  exact eq_of_key_eq hkeys (mem_sortEntries.1 ha) (hperm.mem_iff.1 hb) (String.le_antisymm hab hba)

theorem sortEntries_eq_of_perm {es fs : List (String × α)} (hkeys : (es.map Prod.fst).Nodup) (h : es.Perm fs) :
    sortEntries es = sortEntries fs :=
  sortEntries_eq hkeys ((sortEntries_perm fs).trans h.symm) (pairwise_sortEntries fs)

theorem sortEntries_sortEntries (es : List (String × α)) : sortEntries (sortEntries es) = sortEntries es :=
  List.mergeSort_of_pairwise ((pairwise_sortEntries es).imp fun hle => decide_eq_true hle)

theorem sortEntries_map (f : String × α → β) (es : List (String × α)) :
    sortEntries (es.map fun e => (e.1, f e)) = (sortEntries es).map fun e => (e.1, f e) := by
  symm
  unfold sortEntries
  exact List.map_mergeSort fun _ _ _ _ => rfl

/-- Sorting puts a new key in a place that does not depend on its value. -/
theorem exists_sortEntries_append {es : List (String × α)} {key : String} (hkeys : (es.map Prod.fst).Nodup)
    (hnew : key ∉ es.map Prod.fst) :
    ∃ before after, ∀ x, sortEntries (es ++ [(key, x)]) = before ++ (key, x) :: after := by
  let upTo : String × α → Bool := fun e => e.1 ≤ key
  refine ⟨(sortEntries es).filter upTo, (sortEntries es).filter (!upTo ·), fun x => ?_⟩
  have hle : ∀ a ∈ (sortEntries es).filter upTo, a.1 ≤ key := fun a ha => of_decide_eq_true (List.mem_filter.1 ha).2
  have hge : ∀ b ∈ (sortEntries es).filter (!upTo ·), key ≤ b.1 := by
    intro b hb
    have hnot : ¬ b.1 ≤ key := by simpa [upTo] using (List.mem_filter.1 hb).2
    exact (String.le_total b.1 key).resolve_left hnot
  have hsorted := pairwise_sortEntries es
  apply sortEntries_eq
  · rw [List.map_append, List.nodup_append]
    refine ⟨hkeys, by simp, ?_⟩
    rintro k hk l hl rfl
    obtain rfl : k = key := by simpa using hl
    exact hnew hk
  · have hfilter := (List.filter_append_perm upTo (sortEntries es)).trans (sortEntries_perm es)
    exact List.perm_middle.trans ((hfilter.cons (key, x)).trans (List.perm_append_singleton (key, x) es).symm)
  · rw [List.pairwise_append, List.pairwise_cons]
    refine ⟨hsorted.filter _, ⟨hge, hsorted.filter _⟩, ?_⟩
    intro a ha b hb
    rcases List.mem_cons.1 hb with rfl | hb
    · exact hle a ha
    · exact String.le_trans (hle a ha) (hge b hb)

end Appraisal.Value
