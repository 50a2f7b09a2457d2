import Appraisal.Ruleset.Checked
import Mathlib.Data.List.Forall2

/-! Checks that accept. A check that is put together from others accepts exactly if they do, so what is known of an
    accepted document is taken apart along its parts; a list is accepted item by item (`list_eq_accepted`). -/

namespace Appraisal

/-- Each of the first items has one of the second that belongs to it. -/
theorem exists_of_forall₂ {α β : Type} {R : α → β → Prop} {as : List α} {bs : List β} (h : List.Forall₂ R as bs)
    {a : α} (ha : a ∈ as) : ∃ b ∈ bs, R a b := by
  induction h with
  | nil => cases ha
  | cons hfirst _ ih =>
    rcases List.mem_cons.1 ha with rfl | ha
    · exact ⟨_, List.mem_cons_self, hfirst⟩
    · obtain ⟨b, hb, hab⟩ := ih ha
      exact ⟨b, List.mem_cons_of_mem _ hb, hab⟩

namespace Checked
variable {α β : Type}

theorem ap_eq_accepted {f : Checked (α → β)} {x : Checked α} {b : β} :
    f <*> x = accepted b ↔ ∃ g a, f = accepted g ∧ x = accepted a ∧ g a = b := seq_eq_accepted

theorem fmap_eq_accepted {f : α → β} {x : Checked α} {b : β} :
    f <$> x = accepted b ↔ ∃ a, x = accepted a ∧ f a = b := map_eq_accepted

theorem itemsFrom_eq_accepted {check : Value → Checked α} {i : Nat} {vs : List Value} {as : List α} :
    itemsFrom check i vs = accepted as ↔ List.Forall₂ (fun v a => check v = accepted a) vs as := by
  induction vs generalizing i as with
  | nil =>
    rw [itemsFrom, List.forall₂_nil_left_iff]
    simp [eq_comm]
  | cons v vs ih =>
    rw [itemsFrom, seq_eq_accepted]
    constructor
    · rintro ⟨g, more, hg, hmore, rfl⟩
      obtain ⟨a, ha, rfl⟩ := map_eq_accepted.1 hg
      exact .cons (within_eq_accepted.1 ha) (ih.1 hmore)
    · intro h
      obtain ⟨a, more, ha, hmore, rfl⟩ := List.forall₂_cons_left_iff.1 h
      exact ⟨List.cons a, more, map_eq_accepted.2 ⟨a, within_eq_accepted.2 ha, rfl⟩, ih.2 hmore, rfl⟩

/-- A field that has to be there is there if it is accepted. -/
theorem field_eq_accepted {entries : List (String × Value)} {key : String} {flaw : Flaw} {check : Value → Checked α}
    {a : α} : field entries key (flawed flaw) check = accepted a ↔
      ∃ v, Entries.get? key entries = some v ∧ check v = accepted a := by
  unfold field
  split
  · rename_i v hv
    rw [within_eq_accepted]
    simp [hv]
  · rename_i hnone
    rw [within_eq_accepted]
    simp [hnone, flawed]

section
variable {entries : List (String × Value)} {key : String} {absent : Checked α} {check : Value → Checked α} {a : α}

theorem field_of_get? {v : Value} (hv : Entries.get? key entries = some v) (h : check v = accepted a) :
    field entries key absent check = accepted a := by
  rw [field, hv]
  exact within_eq_accepted.2 h

/-- What is accepted of a field stands for its absence or for the value under its key. -/
theorem exists_of_field (h : field entries key absent check = accepted a) :
    absent = accepted a ∨ ∃ v, Entries.get? key entries = some v ∧ check v = accepted a := by
  unfold field at h
  split at h
  · rename_i v hv
    exact .inr ⟨v, hv, within_eq_accepted.1 h⟩
  · exact .inl (within_eq_accepted.1 h)

end

theorem list_eq_accepted {check : Value → Checked α} {v : Value} {as : List α} : list check v = accepted as ↔
    ∃ vs, v = .list vs ∧ List.Forall₂ (fun v a => check v = accepted a) vs as := by
  cases v with
  | list vs => simp [list, itemsFrom_eq_accepted]
  | _ => simp [list, flawed]

theorem list_map {check : Value → Checked α} {write : α → Value} {as : List α}
    (h : ∀ a ∈ as, check (write a) = accepted a) : list check (.list (as.map write)) = accepted as :=
  list_eq_accepted.2 ⟨_, rfl, List.forall₂_map_left_iff.2 (List.forall₂_same.2 h)⟩

theorem text_eq_accepted {v : Value} {s : String} : text v = accepted s ↔ v = .text s := by
  cases v <;> simp [text, flawed]

theorem optionalText_textOr (s : Option String) : optionalText (Value.textOr s) = accepted s := by
  cases s <;> rfl

theorem record_eq_accepted {name : String} {v : Value} {entries : List (String × Value)} :
    record name v = accepted entries ↔ v = .map entries := by
  cases v <;> simp [record, flawed]

theorem andThen_eq_accepted {x : Checked α} {f : α → Checked β} {b : β} :
    x.andThen f = accepted b ↔ ∃ a, x = accepted a ∧ f a = accepted b := by
  cases x <;> simp [andThen]

end Checked
end Appraisal
