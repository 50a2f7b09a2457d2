/-! Maps in the order in which their keys were first put. Putting a key that is there keeps its position and
    replaces its value; a new key goes to the end. The keys of a map are distinct. -/

namespace Appraisal

/-! ### Entry lists -/

namespace Entries
variable {α : Type}

/-- The value of the first entry with the key. -/
def get? (key : String) : List (String × α) → Option α
  | [] => none
  | (k, v) :: rest => if k = key then some v else get? key rest

/-- The entries with `value` under `key`, in place if the key is there. -/
def put (key : String) (value : α) : List (String × α) → List (String × α)
  | [] => [(key, value)]
  | (k, v) :: rest => if k = key then (k, value) :: rest else (k, v) :: put key value rest

theorem mem_keys_put {key k : String} {value : α} {es : List (String × α)} :
    k ∈ (put key value es).map Prod.fst ↔ k = key ∨ k ∈ es.map Prod.fst := by
  induction es with
  | nil => simp [put]
  | cons e rest ih =>
    obtain ⟨k', v⟩ := e
    by_cases h : k' = key
    · subst h; simp [put]
    · simp only [put, h, if_false, List.map_cons, List.mem_cons, ih]
      constructor
      · rintro (rfl | rfl | h) <;> simp [*]
      · rintro (rfl | rfl | h) <;> simp [*]

theorem nodup_keys_put {key : String} {value : α} {es : List (String × α)} (h : (es.map Prod.fst).Nodup) :
    ((put key value es).map Prod.fst).Nodup := by
  induction es with
  | nil => simp [put]
  | cons e rest ih =>
    obtain ⟨k, v⟩ := e
    rw [List.map_cons, List.nodup_cons] at h
    by_cases hk : k = key
    · rw [put, if_pos hk, List.map_cons, List.nodup_cons]
      exact h
    · rw [put, if_neg hk, List.map_cons, List.nodup_cons, mem_keys_put, not_or]
      exact ⟨⟨hk, h.1⟩, ih h.2⟩

theorem get?_put {key k : String} {value : α} {es : List (String × α)} :
    get? k (put key value es) = if k = key then some value else get? k es := by
  induction es with
  | nil => by_cases h : key = k <;> simp [put, get?, h, eq_comm]
  | cons e rest ih =>
    obtain ⟨k', v⟩ := e
    by_cases h : k' = key
    · subst h
      by_cases hk : k' = k
      · subst hk; simp [put, get?]
      · simp [put, get?, hk, Ne.symm hk]
    · by_cases hk : k' = k
      · subst hk; simp [put, get?, h]
      · simp [put, get?, h, hk, ih]

theorem mem_of_get? {key : String} {v : α} {es : List (String × α)} (h : get? key es = some v) : (key, v) ∈ es := by
  induction es with
  | nil => cases h
  | cons e es ih =>
    obtain ⟨k, w⟩ := e
    by_cases hk : k = key
    · subst hk
      obtain rfl : w = v := by simpa [get?] using h
      exact List.mem_cons_self
    · exact List.mem_cons_of_mem _ (ih (by simpa [get?, hk] using h))

theorem mem_of_mem_put {key : String} {value : α} {es : List (String × α)} {e : String × α}
    (h : e ∈ put key value es) : e = (key, value) ∨ e ∈ es := by
  induction es with
  | nil => exact .inl (by simpa [put] using h)
  | cons f es ih =>
    obtain ⟨k, v⟩ := f
    by_cases hk : k = key
    · rw [put, if_pos hk, List.mem_cons] at h
      rcases h with rfl | h
      · exact .inl (by rw [hk])
      · exact .inr (List.mem_cons_of_mem _ h)
    · rw [put, if_neg hk, List.mem_cons] at h
      rcases h with rfl | h
      · exact .inr List.mem_cons_self
      · exact (ih h).imp_right (List.mem_cons_of_mem _)

end Entries

/-! ### Maps -/

/-- A map from texts to values that remembers the order of its keys. -/
structure OrderedMap (α : Type) where
  entries : List (String × α)
  distinct : (entries.map Prod.fst).Nodup

namespace OrderedMap
variable {α β : Type}

def empty : OrderedMap α := ⟨[], List.nodup_nil⟩

instance : Inhabited (OrderedMap α) := ⟨empty⟩

instance [DecidableEq α] : DecidableEq (OrderedMap α) := fun a b =>
  decidable_of_iff (a.entries = b.entries) ⟨fun h => by cases a; cases b; cases h; rfl, fun h => h ▸ rfl⟩

def get? (m : OrderedMap α) (key : String) : Option α := Entries.get? key m.entries

def put (m : OrderedMap α) (key : String) (value : α) : OrderedMap α :=
  ⟨Entries.put key value m.entries, Entries.nodup_keys_put m.distinct⟩

def keys (m : OrderedMap α) : List String := m.entries.map Prod.fst

/-- The map that arises by putting the entries one after another. -/
def ofList (entries : List (String × α)) : OrderedMap α := entries.foldl (fun m e => m.put e.1 e.2) empty

/-- The map with the same keys and changed values. -/
def map (f : α → β) (m : OrderedMap α) : OrderedMap β :=
  ⟨m.entries.map fun e => (e.1, f e.2), by simpa [Function.comp_def] using m.distinct⟩

/-- The entries whose key satisfies `p`, in order. -/
def filterKeys (p : String → Bool) (m : OrderedMap α) : OrderedMap α :=
  ⟨m.entries.filter fun e => p e.1, (List.filter_sublist.map _).nodup m.distinct⟩

@[ext] theorem ext {a b : OrderedMap α} (h : a.entries = b.entries) : a = b := by
  cases a; cases b; cases h; rfl

@[simp] theorem get?_empty (key : String) : (empty : OrderedMap α).get? key = none := rfl

@[simp] theorem get?_put (m : OrderedMap α) (key k : String) (value : α) :
    (m.put key value).get? k = if k = key then some value else m.get? k := Entries.get?_put

@[simp] theorem mem_keys_put {m : OrderedMap α} {key k : String} {value : α} :
    k ∈ (m.put key value).keys ↔ k = key ∨ k ∈ m.keys := Entries.mem_keys_put

theorem keys_nodup (m : OrderedMap α) : m.keys.Nodup := m.distinct

end OrderedMap
end Appraisal
