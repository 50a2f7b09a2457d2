import Appraisal.Value.Basic
import Mathlib.Data.List.Forall2
import Mathlib.Data.List.Nodup

/-! Trees: values made of `null`, truth values, integers, texts, lists, and mappings without double keys. Trees are the
    same if nothing but the order of keys tells them apart; sameness is decided part by part (`same_text`,
    `same_list`, `same_map_cons`). -/

namespace Appraisal.Value

/-- Made of `null`, truth values, integers, texts, lists, and mappings that have no key twice. -/
inductive IsTree : Value → Prop where
  | null : IsTree .null
  | bool (b : Bool) : IsTree (.bool b)
  | int (n : Int) : IsTree (.int n)
  | text (s : String) : IsTree (.text s)
  | list {items : List Value} (each : ∀ v ∈ items, IsTree v) : IsTree (.list items)
  | map {entries : List (String × Value)} (keys : (entries.map Prod.fst).Nodup) (each : ∀ e ∈ entries, IsTree e.2) :
    IsTree (.map entries)

/-- The same but for the order of keys, at every level. -/
inductive Same : Value → Value → Prop where
  | null : Same .null .null
  | bool (b : Bool) : Same (.bool b) (.bool b)
  | number (n : Number) : Same (.number n) (.number n)
  | text (s : String) : Same (.text s) (.text s)
  | list {xs ys : List Value} (items : List.Forall₂ Same xs ys) : Same (.list xs) (.list ys)
  | map {es fs : List (String × Value)} (keys : ∀ k, k ∈ es.map Prod.fst ↔ k ∈ fs.map Prod.fst)
    (values : ∀ k v w, (k, v) ∈ es → (k, w) ∈ fs → Same v w) : Same (.map es) (.map fs)

attribute [simp] IsTree.null IsTree.bool IsTree.int IsTree.text

@[simp] theorem isTree_list {items : List Value} : IsTree (.list items) ↔ ∀ v ∈ items, IsTree v := by
  constructor
  · intro h
    cases h with
    | list each => exact each
  · exact IsTree.list

@[simp] theorem isTree_map {entries : List (String × Value)} :
    IsTree (.map entries) ↔ (entries.map Prod.fst).Nodup ∧ ∀ e ∈ entries, IsTree e.2 := by
  constructor
  · intro h
    cases h with
    | map keys each => exact ⟨keys, each⟩
  · rintro ⟨hkeys, heach⟩
    exact .map hkeys heach

/-! ### Sameness part by part -/

@[simp] theorem same_null : Same .null .null := .null

@[simp] theorem same_text {s t : String} : Same (.text s) (.text t) ↔ s = t := by
  constructor
  · intro h
    cases h
    rfl
  · rintro rfl
    exact .text s

theorem same_list {xs ys : List Value} : Same (.list xs) (.list ys) ↔ List.Forall₂ Same xs ys := by
  constructor
  · intro h
    cases h with
    | list items => exact items
  · exact Same.list

@[simp] theorem not_same_null_map (es : List (String × Value)) : ¬ Same .null (.map es) := nofun

@[simp] theorem not_same_map_null (es : List (String × Value)) : ¬ Same (.map es) .null := nofun

@[simp] theorem same_map_nil : Same (.map []) (.map []) := .map (by simp) (by simp)

@[simp] theorem not_same_map_nil_cons (e : String × Value) (es : List (String × Value)) :
    ¬ Same (.map []) (.map (e :: es)) := by
  intro h
  cases h with
  | map hkeys _ =>
    have hkey := (hkeys e.1).2 (by simp)
    cases hkey

@[simp] theorem not_same_map_cons_nil (e : String × Value) (es : List (String × Value)) :
    ¬ Same (.map (e :: es)) (.map []) := by
  intro h
  cases h with
  | map hkeys _ =>
    have hkey := (hkeys e.1).1 (by simp)
    cases hkey

/-- Mappings that begin with the same key are the same if the values under it are and the other entries are. -/
theorem same_map_cons {key : String} {v w : Value} {es fs : List (String × Value)} (hes : key ∉ es.map Prod.fst)
    (hfs : key ∉ fs.map Prod.fst) :
    Same (.map ((key, v) :: es)) (.map ((key, w) :: fs)) ↔ Same v w ∧ Same (.map es) (.map fs) := by
  constructor
  · intro h
    cases h with
    | map hkeys hvalues =>
      have hvw := hvalues key v w List.mem_cons_self List.mem_cons_self
      refine ⟨hvw, .map (fun k => ?_) fun k x y hx hy =>
        hvalues k x y (List.mem_cons_of_mem _ hx) (List.mem_cons_of_mem _ hy)⟩
      by_cases hk : k = key
      · subst hk
        exact iff_of_false hes hfs
      · have hother := hkeys k
        simpa only [List.map_cons, List.mem_cons, hk, false_or] using hother
  · rintro ⟨hvw, h⟩
    cases h with
    | map hkeys hvalues =>
      refine .map (fun k => ?_) fun k x y hx hy => ?_
      · rw [List.map_cons, List.map_cons, List.mem_cons, List.mem_cons, hkeys]
      · rw [List.mem_cons] at hx hy
        rcases hx with hx | hx
        · obtain ⟨rfl, rfl⟩ := Prod.mk.inj hx
          rcases hy with hy | hy
          · obtain ⟨-, rfl⟩ := Prod.mk.inj hy
            exact hvw
          · exact absurd (List.mem_map.2 ⟨_, hy, rfl⟩) hfs
        · rcases hy with hy | hy
          · obtain ⟨rfl, -⟩ := Prod.mk.inj hy
            exact absurd (List.mem_map.2 ⟨_, hx, rfl⟩) hes
          · exact hvalues k x y hx hy

/-- Lists of values that tell what they are made from are the same only if they are made from the same. -/
theorem same_list_map {α : Type} {f : α → Value} {xs ys : List α}
    (htold : ∀ a ∈ xs, ∀ b ∈ ys, Same (f a) (f b) ↔ a = b) : Same (.list (xs.map f)) (.list (ys.map f)) ↔ xs = ys := by
  rw [same_list, List.forall₂_map_left_iff, List.forall₂_map_right_iff]
  induction xs generalizing ys with
  | nil => rw [List.forall₂_nil_left_iff, eq_comm]
  | cons x xs ih =>
    cases ys with
    | nil => simp
    | cons y ys =>
      rw [List.forall₂_cons, List.cons.injEq, htold x List.mem_cons_self y List.mem_cons_self,
        ih fun a ha b hb => htold a (List.mem_cons_of_mem _ ha) b (List.mem_cons_of_mem _ hb)]

theorem same_texts {ss ts : List String} : Same (texts ss) (texts ts) ↔ ss = ts :=
  same_list_map fun _ _ _ _ => same_text

/-! ### Scalars -/

/-- `null`, a truth value, an integer or a text. -/
inductive IsScalar : Value → Prop where
  | null : IsScalar .null
  | bool (b : Bool) : IsScalar (.bool b)
  | int (n : Int) : IsScalar (.int n)
  | text (s : String) : IsScalar (.text s)

theorem IsScalar.isTree {v : Value} (h : IsScalar v) : IsTree v := by
  cases h with
  | null => exact .null
  | bool b => exact .bool b
  | int n => exact .int n
  | text s => exact .text s

theorem IsScalar.same_self {v : Value} (h : IsScalar v) : Same v v := by
  cases h with
  | null => exact .null
  | bool b => exact .bool b
  | int n => exact .number (.int n)
  | text s => exact .text s

theorem IsScalar.same_iff {v w : Value} (h : IsScalar v) : Same v w ↔ v = w := by
  constructor
  · intro hsame
    cases h with
    | _ =>
      cases hsame
      rfl
  · rintro rfl
    exact h.same_self

end Appraisal.Value
