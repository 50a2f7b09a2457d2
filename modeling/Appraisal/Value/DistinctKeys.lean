import Appraisal.Value.Reader

/-! Values without double keys. A mapping that has a key twice stands for no value of a document, and none is read: of
    equal keys in a text the last one counts (`distinctKeys_of_read`). -/

namespace Appraisal

namespace Value

/-- No mapping has a key twice, at any level. -/
inductive DistinctKeys : Value → Prop where
  | null : DistinctKeys .null
  | bool (b : Bool) : DistinctKeys (.bool b)
  | number (n : Number) : DistinctKeys (.number n)
  | text (s : String) : DistinctKeys (.text s)
  | list {items : List Value} (each : ∀ v ∈ items, DistinctKeys v) : DistinctKeys (.list items)
  | map {entries : List (String × Value)} (keys : (entries.map Prod.fst).Nodup)
    (each : ∀ e ∈ entries, DistinctKeys e.2) : DistinctKeys (.map entries)

attribute [simp] DistinctKeys.null DistinctKeys.bool DistinctKeys.number DistinctKeys.text

@[simp] theorem distinctKeys_list {items : List Value} : DistinctKeys (.list items) ↔ ∀ v ∈ items, DistinctKeys v := by
  constructor
  · intro h
    cases h with
    | list each => exact each
  · exact DistinctKeys.list

@[simp] theorem distinctKeys_map {entries : List (String × Value)} :
    DistinctKeys (.map entries) ↔ (entries.map Prod.fst).Nodup ∧ ∀ e ∈ entries, DistinctKeys e.2 := by
  constructor
  · intro h
    cases h with
    | map keys each => exact ⟨keys, each⟩
  · rintro ⟨hkeys, heach⟩
    exact .map hkeys heach

@[simp] theorem distinctKeys_texts (ss : List String) : (texts ss).DistinctKeys := by simp [texts]

@[simp] theorem distinctKeys_textOr (s : Option String) : (textOr s).DistinctKeys := by cases s <;> simp [textOr]

theorem DistinctKeys.of_get? {key : String} {v : Value} {entries : List (String × Value)}
    (h : DistinctKeys (.map entries)) (hv : Entries.get? key entries = some v) : DistinctKeys v :=
  (distinctKeys_map.1 h).2 _ (Entries.mem_of_get? hv)

theorem DistinctKeys.put {v : Value} {entries : List (String × Value)} (h : DistinctKeys (.map entries)) (key : String)
    (hv : DistinctKeys v) : DistinctKeys (.map (Entries.put key v entries)) := by
  obtain ⟨hkeys, heach⟩ := distinctKeys_map.1 h
  refine .map (Entries.nodup_keys_put hkeys) fun e he => ?_
  rcases Entries.mem_of_mem_put he with rfl | he
  · exact hv
  · exact heach e he

/-! ### Reading -/

namespace Reader

theorem distinctKeys_of_plain {cs rest : List Char} {v : Value} (h : plain cs = .ok (v, rest)) : DistinctKeys v := by
  unfold plain at h
  split at h
  · rename_i word w hw
    obtain ⟨rfl, -⟩ : w = v ∧ _ := by simpa using h
    have hmem := List.mem_of_find?_eq_some hw
    simp only [words, List.mem_cons, Prod.mk.injEq, List.not_mem_nil, or_false] at hmem
    rcases hmem with ⟨-, rfl⟩ | ⟨-, rfl⟩ | ⟨-, rfl⟩ | ⟨-, rfl⟩ | ⟨-, rfl⟩ | ⟨-, rfl⟩ <;> simp
  · cases hn : number (Numeral.splitMinus cs).1 (Numeral.splitMinus cs).2 with
    | error e => simp [hn, Except.map] at h
    | ok p =>
      obtain ⟨rfl, -⟩ : Value.number p.1 = v ∧ _ := by simpa [hn, Except.map] using h
      exact .number p.1

/-- With this much fuel, each of the three readers gives values without double keys. -/
structure Keeps (fuel : Nat) : Prop where
  value {depth : Nat} {cs rest : List Char} {v : Value} (h : value fuel depth cs = .ok (v, rest)) : DistinctKeys v
  items {depth : Nat} {before : List Value} {cs rest : List Char} {v : Value} (hbefore : DistinctKeys (.list before))
    (h : items fuel depth before cs = .ok (v, rest)) : DistinctKeys v
  members {depth : Nat} {before : List (String × Value)} {cs rest : List Char} {v : Value}
    (hbefore : DistinctKeys (.map before)) (h : members fuel depth before cs = .ok (v, rest)) : DistinctKeys v

namespace Keeps
variable {fuel depth : Nat} {cs rest : List Char} {v : Value}

theorem value_succ (keeps : Keeps fuel) (h : Reader.value (fuel + 1) depth cs = .ok (v, rest)) : DistinctKeys v := by
  have hlist : DistinctKeys (.list []) := by simp
  have hmap : DistinctKeys (.map []) := by simp
  unfold Reader.value at h
  split at h
  · cases h
  · cases h
  · cases h
  · rename_i hfuel
    cases hfuel
    split at h
    · cases h
      exact hlist
    · exact keeps.items hlist h
  · rename_i hfuel
    cases hfuel
    split at h
    · cases h
      exact hmap
    · exact keeps.members hmap h
  · obtain ⟨p, -, heq⟩ := Outcome.map_eq_ok_iff.1 h
    cases heq
    exact .text p.1
  · exact distinctKeys_of_plain h

theorem items_succ {before : List Value} (keeps : Keeps fuel) (hbefore : DistinctKeys (.list before))
    (h : Reader.items (fuel + 1) depth before cs = .ok (v, rest)) : DistinctKeys v := by
  unfold Reader.items at h
  obtain ⟨⟨w, after⟩, hw, h⟩ := Outcome.bind_eq_ok_iff.1 h
  dsimp only at h
  have hnext : DistinctKeys (.list (w :: before)) := by
    simpa using ⟨keeps.value hw, distinctKeys_list.1 hbefore⟩
  split at h
  · exact keeps.items hnext h
  · cases h
    simpa [or_imp, forall_and, and_comm] using hnext
  · cases h

theorem members_succ {before : List (String × Value)} (keeps : Keeps fuel) (hbefore : DistinctKeys (.map before))
    (h : Reader.members (fuel + 1) depth before cs = .ok (v, rest)) : DistinctKeys v := by
  unfold Reader.members at h
  split at h
  · cases h
  · rename_i hfuel
    cases hfuel
    obtain ⟨⟨key, afterKey⟩, -, h⟩ := Outcome.bind_eq_ok_iff.1 h
    dsimp only at h
    split at h
    · obtain ⟨⟨w, after⟩, hw, h⟩ := Outcome.bind_eq_ok_iff.1 h
      dsimp only at h
      have hnext := hbefore.put key (keeps.value hw)
      split at h
      · exact keeps.members hnext h
      · cases h
        exact hnext
      · cases h
    · cases h
  · cases h

end Keeps

theorem keeps (fuel : Nat) : Keeps fuel := by
  induction fuel with
  | zero => exact ⟨nofun, fun _ => nofun, fun _ => nofun⟩
  | succ fuel ih => exact ⟨ih.value_succ, ih.items_succ, ih.members_succ⟩

end Reader

/-- A value that is read from a text has no double keys, whatever the text has. -/
theorem distinctKeys_of_read {depth : Nat} {cs : List Char} {v : Value} (h : read depth cs = .ok v) :
    DistinctKeys v := by
  obtain ⟨⟨w, rest⟩, hw, h⟩ := Outcome.bind_eq_ok_iff.1 h
  dsimp only at h
  split at h
  · cases h
    exact (Reader.keeps _).value hw
  · cases h

end Value
end Appraisal
