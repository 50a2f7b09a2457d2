import Appraisal.OrderedMap
import Mathlib.Data.List.Induction

/-! Maps made of entries put one after another. The keys of such a map are those that were there and after them the
    new ones, each where it is put first (`keys_putAll`), and a key has the value that it was given last
    (`get?_putAll`). A map is known by its keys in order and their values (`ext_get?`); so it makes no difference
    whether entries are put on a map one by one, or first made into a map with which it is updated
    (`update_ofList`). -/

namespace Appraisal

namespace Entries
variable {α : Type}

theorem keys_put {key : String} {value : α} {es : List (String × α)} :
    (put key value es).map Prod.fst =
      if key ∈ es.map Prod.fst then es.map Prod.fst else es.map Prod.fst ++ [key] := by
  induction es with
  | nil => simp [put]
  | cons e rest ih =>
    obtain ⟨k, v⟩ := e
    by_cases hk : k = key
    · simp [put, hk]
    · rw [put, if_neg hk, List.map_cons, ih, List.map_cons]
      by_cases hmem : key ∈ rest.map Prod.fst
      · rw [if_pos hmem, if_pos (List.mem_cons_of_mem _ hmem)]
      · have hnew : key ∉ k :: rest.map Prod.fst := List.not_mem_cons_of_ne_of_not_mem (Ne.symm hk) hmem
        rw [if_neg hmem, if_neg hnew, List.cons_append]

theorem put_of_not_mem {key : String} {value : α} {es : List (String × α)} (h : key ∉ es.map Prod.fst) :
    put key value es = es ++ [(key, value)] := by
  induction es with
  | nil => rfl
  | cons e rest ih =>
    obtain ⟨hk, hrest⟩ := List.ne_and_not_mem_of_not_mem_cons h
    rw [put, if_neg (Ne.symm hk), ih hrest, List.cons_append]

theorem put_append_cons {key : String} {before after : List (String × α)} (h : key ∉ before.map Prod.fst)
    (old value : α) : put key value (before ++ (key, old) :: after) = before ++ (key, value) :: after := by
  induction before with
  | nil => rw [List.nil_append, put, if_pos rfl, List.nil_append]
  | cons e before ih =>
    obtain ⟨hne, hbefore⟩ := List.ne_and_not_mem_of_not_mem_cons h
    rw [List.cons_append, put, if_neg (Ne.symm hne), ih hbefore, List.cons_append]

theorem get?_eq_none {key : String} {es : List (String × α)} (h : key ∉ es.map Prod.fst) : get? key es = none := by
  induction es with
  | nil => rfl
  | cons e rest ih =>
    obtain ⟨hk, hrest⟩ := List.ne_and_not_mem_of_not_mem_cons h
    rw [get?, if_neg (Ne.symm hk), ih hrest]

theorem not_mem_of_get?_eq_none {key : String} {es : List (String × α)} (h : get? key es = none) :
    key ∉ es.map Prod.fst := by
  induction es with
  | nil => exact List.not_mem_nil
  | cons e es ih =>
    obtain ⟨k, v⟩ := e
    by_cases hk : k = key
    · simp [get?, hk] at h
    · exact List.not_mem_cons_of_ne_of_not_mem (Ne.symm hk) (ih (by simpa [get?, hk] using h))

/-- Leaving out other keys leaves the value under a key as it is. -/
theorem get?_filter {p : String → Bool} {key : String} (es : List (String × α)) (hp : p key = true) :
    get? key (es.filter fun e => p e.1) = get? key es := by
  induction es with
  | nil => rfl
  | cons e es ih =>
    obtain ⟨k, v⟩ := e
    by_cases hk : k = key
    · subst hk
      simp [get?, hp]
    · by_cases hpk : p k = true <;> simp [get?, hpk, hk, ih]

theorem filter_put (p : String → Bool) (key : String) (value : α) (es : List (String × α)) :
    (put key value es).filter (fun e => p e.1) =
      if p key then put key value (es.filter fun e => p e.1) else es.filter fun e => p e.1 := by
  induction es with
  | nil => by_cases hp : p key = true <;> simp [put, hp]
  | cons e es ih =>
    obtain ⟨k, v⟩ := e
    by_cases hk : k = key
    · subst hk
      by_cases hp : p k = true <;> simp [put, hp]
    · by_cases hp : p key = true <;> by_cases hpk : p k = true <;> simp_all [put]

theorem get?_eq_some_iff_mem {key : String} {v : α} {es : List (String × α)} (hdistinct : (es.map Prod.fst).Nodup) :
    get? key es = some v ↔ (key, v) ∈ es := by
  constructor
  · exact mem_of_get?
  · intro hmem
    induction es with
    | nil => cases hmem
    | cons e es ih =>
      obtain ⟨k, w⟩ := e
      obtain ⟨hnew, hdistinct⟩ := List.nodup_cons.1 hdistinct
      rcases List.mem_cons.1 hmem with he | hmem
      · cases he
        simp [get?]
      · have hk : k ≠ key := by
          rintro rfl
          exact hnew (List.mem_map.2 ⟨_, hmem, rfl⟩)
        rw [get?, if_neg hk, ih hdistinct hmem]

/-- Of entries with distinct keys, the order makes no difference. -/
theorem get?_perm {es fs : List (String × α)} (h : es.Perm fs) (hdistinct : (es.map Prod.fst).Nodup) (key : String) :
    get? key es = get? key fs := by
  refine Option.ext fun v => ?_
  have hdistinct' : (fs.map Prod.fst).Nodup := (h.map Prod.fst).nodup_iff.1 hdistinct
  rw [get?_eq_some_iff_mem hdistinct, get?_eq_some_iff_mem hdistinct', h.mem_iff]

theorem ext_get? {es fs : List (String × α)} (hdistinct : (es.map Prod.fst).Nodup)
    (hkeys : es.map Prod.fst = fs.map Prod.fst) (hget : ∀ key, get? key es = get? key fs) : es = fs := by
  induction es generalizing fs with
  | nil => exact (List.map_eq_nil_iff.1 hkeys.symm).symm
  | cons e es ih =>
    obtain ⟨k, v⟩ := e
    obtain ⟨⟨k', w⟩, fs, rfl, rfl, htail⟩ := List.map_eq_cons_iff.1 hkeys.symm
    obtain ⟨hnew, hdistinct⟩ := List.nodup_cons.1 hdistinct
    have hvalue : v = w := by simpa [get?] using hget k'
    rw [hvalue, ih hdistinct htail.symm fun key => ?_]
    by_cases hk : k' = key
    · subst hk
      rw [get?_eq_none hnew, get?_eq_none (htail ▸ hnew)]
    · simpa [get?, hk] using hget key

end Entries

namespace OrderedMap
variable {α : Type}

/-- Putting a key leaves the keys as they are, or adds the key at the end if it is new. -/
theorem keys_put (m : OrderedMap α) (key : String) (value : α) :
    (m.put key value).keys = if key ∈ m.keys then m.keys else m.keys ++ [key] := Entries.keys_put

theorem entries_put_of_not_mem {m : OrderedMap α} {key : String} (h : key ∉ m.keys) (value : α) :
    (m.put key value).entries = m.entries ++ [(key, value)] := Entries.put_of_not_mem h

theorem entries_put_of_entries {m : OrderedMap α} {key : String} {before after : List (String × α)} {old : α}
    (h : m.entries = before ++ (key, old) :: after) (value : α) :
    (m.put key value).entries = before ++ (key, value) :: after := by
  have hdistinct := m.distinct
  rw [h, List.map_append, List.nodup_append] at hdistinct
  have hbefore : key ∉ before.map Prod.fst := fun hkey => hdistinct.2.2 key hkey key List.mem_cons_self rfl
  have hput : (m.put key value).entries = Entries.put key value m.entries := rfl
  rw [hput, h, Entries.put_append_cons hbefore]

theorem ext_get? {m n : OrderedMap α} (hkeys : m.keys = n.keys) (hget : ∀ key, m.get? key = n.get? key) : m = n :=
  ext (Entries.ext_get? m.distinct hkeys hget)

theorem get?_perm {m n : OrderedMap α} (h : m.entries.Perm n.entries) (key : String) : m.get? key = n.get? key :=
  Entries.get?_perm h m.distinct key

theorem mem_keys_of_get? {m : OrderedMap α} {key : String} {value : α} (h : m.get? key = some value) : key ∈ m.keys :=
  List.mem_map_of_mem (Entries.mem_of_get? h)

/-- Putting the value that a key has changes nothing. -/
theorem put_of_get? {m : OrderedMap α} {key : String} {value : α} (h : m.get? key = some value) :
    m.put key value = m := by
  refine ext_get? ?_ fun k => ?_
  · rw [keys_put, if_pos (mem_keys_of_get? h)]
  · rw [get?_put]
    split
    · rename_i hk
      rw [hk, h]
    · rfl

/-! ### Leaving out keys -/

theorem get?_filterKeys {p : String → Bool} {key : String} (m : OrderedMap α) (hp : p key = true) :
    (m.filterKeys p).get? key = m.get? key := Entries.get?_filter m.entries hp

theorem filterKeys_put (p : String → Bool) (m : OrderedMap α) (key : String) (value : α) :
    (m.put key value).filterKeys p = if p key then (m.filterKeys p).put key value else m.filterKeys p := by
  refine ext ((Entries.filter_put p key value m.entries).trans ?_)
  split <;> rfl

/-- The map without a key. -/
def without (m : OrderedMap α) (key : String) : OrderedMap α := m.filterKeys (· ≠ key)

theorem get?_without {key k : String} (m : OrderedMap α) (h : k ≠ key) : (m.without key).get? k = m.get? k :=
  get?_filterKeys m (decide_eq_true h)

theorem without_put (m : OrderedMap α) (key : String) (value : α) : (m.put key value).without key = m.without key := by
  rw [without, filterKeys_put, if_neg (by simp), without]

/-! ### Entries put one after another -/

/-- The map with the entries put one after another. -/
def putAll (m : OrderedMap α) (es : List (String × α)) : OrderedMap α := es.foldl (fun m e => m.put e.1 e.2) m

theorem putAll_append (m : OrderedMap α) (es fs : List (String × α)) :
    m.putAll (es ++ fs) = (m.putAll es).putAll fs := List.foldl_append

theorem putAll_concat (m : OrderedMap α) (es : List (String × α)) (e : String × α) :
    m.putAll (es ++ [e]) = (m.putAll es).put e.1 e.2 := putAll_append m es [e]

theorem keys_putAll (m : OrderedMap α) (es : List (String × α)) :
    (m.putAll es).keys = m.keys ++ (es.map Prod.fst).eraseDups.filter (· ∉ m.keys) := by
  induction es using List.reverseRecOn with
  | nil => simp [putAll]
  | append_singleton es e ih =>
    rw [putAll_concat, keys_put, ih, List.map_append, List.eraseDups_append]
    by_cases hm : e.1 ∈ m.keys <;> by_cases hes : e.1 ∈ es.map Prod.fst <;>
      simp [List.removeAll, hm, hes, List.eraseDups_cons]

theorem get?_putAll (m : OrderedMap α) (es : List (String × α)) (key : String) :
    (m.putAll es).get? key = ((es.filter (·.1 = key)).getLast?.map Prod.snd).or (m.get? key) := by
  induction es using List.reverseRecOn with
  | nil => rfl
  | append_singleton es e ih =>
    rw [putAll_concat, get?_put, ih, List.filter_append]
    by_cases hk : e.1 = key
    · simp [hk]
    · simp [hk, Ne.symm hk]

/-! ### Maps of entries -/

theorem keys_ofList (es : List (String × α)) : (ofList es).keys = (es.map Prod.fst).eraseDups := by
  have h : (ofList es).keys = [] ++ (es.map Prod.fst).eraseDups.filter (· ∉ []) := keys_putAll empty es
  rw [h, List.nil_append, List.filter_eq_self]
  simp

theorem get?_ofList (es : List (String × α)) (key : String) :
    (ofList es).get? key = (es.filter (·.1 = key)).getLast?.map Prod.snd := by
  have h : (ofList es).get? key = ((es.filter (·.1 = key)).getLast?.map Prod.snd).or none := get?_putAll empty es key
  rw [h, Option.or_none]

theorem ofList_concat (es : List (String × α)) (e : String × α) : ofList (es ++ [e]) = (ofList es).put e.1 e.2 :=
  List.foldl_append

theorem mem_of_mem_ofList {es : List (String × α)} {e : String × α}
    (h : e ∈ (ofList es).entries) : e ∈ es := by
  induction es using List.reverseRecOn with
  | nil => exact h
  | append_singleton es f ih =>
    rw [ofList_concat] at h
    rcases Entries.mem_of_mem_put h with rfl | h
    · exact List.mem_concat_self
    · exact List.mem_append_left _ (ih h)

/-- Entries with distinct keys are the entries of the map that is made of them. -/
theorem entries_ofList {es : List (String × α)} (h : (es.map Prod.fst).Nodup) : (ofList es).entries = es := by
  induction es using List.reverseRecOn with
  | nil => rfl
  | append_singleton es e ih =>
    rw [List.map_append, List.nodup_append] at h
    obtain ⟨hdistinct, -, hnew⟩ := h
    have hput : (ofList (es ++ [e])).entries = Entries.put e.1 e.2 (ofList es).entries :=
      congrArg entries (ofList_concat es e)
    rw [hput, ih hdistinct, Entries.put_of_not_mem fun hmem => hnew e.1 hmem e.1 (by simp) rfl]

/-- Leaving out keys before or after the entries are put makes no difference. -/
theorem filterKeys_ofList (p : String → Bool) (es : List (String × α)) :
    (ofList es).filterKeys p = ofList (es.filter fun e => p e.1) := by
  induction es using List.reverseRecOn with
  | nil => rfl
  | append_singleton es e ih =>
    rw [ofList_concat, filterKeys_put, ih, List.filter_append]
    by_cases hp : p e.1 = true
    · have hlast : [e].filter (fun e => p e.1) = [e] := List.filter_cons_of_pos hp
      rw [if_pos hp, hlast, ofList_concat]
    · have hlast : [e].filter (fun e => p e.1) = [] := List.filter_cons_of_neg hp
      rw [if_neg hp, hlast, List.append_nil]

theorem ofList_entries (m : OrderedMap α) : ofList m.entries = m := ext (entries_ofList m.distinct)

/-! ### Updates -/

/-- The map with the entries of another put one after another. -/
def update (m n : OrderedMap α) : OrderedMap α := m.putAll n.entries

/-- The keys keep their places, and the new ones follow in their order. -/
theorem keys_update (m n : OrderedMap α) : (m.update n).keys = m.keys ++ n.keys.filter (· ∉ m.keys) := by
  have h : n.keys.eraseDups = n.keys := by rw [keys, ← keys_ofList, ofList_entries, keys]
  rw [update, keys_putAll, ← h]
  rfl

theorem get?_update (m n : OrderedMap α) (key : String) : (m.update n).get? key = (n.get? key).or (m.get? key) := by
  rw [update, get?_putAll, ← get?_ofList, ofList_entries]

theorem update_ofList (m : OrderedMap α) (es : List (String × α)) : m.update (ofList es) = m.putAll es := by
  refine ext_get? ?_ fun key => ?_
  · rw [keys_update, keys_putAll, keys_ofList]
  · rw [get?_update, get?_putAll, get?_ofList]

end OrderedMap
end Appraisal
