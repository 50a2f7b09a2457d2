import Appraisal.Proofs.Text.Run
import Appraisal.Proofs.Value.Quoted
import Appraisal.Proofs.Value.Sorting
import Appraisal.Proofs.Value.Tree

/-! What a canonical text says. Values made of `null`, truth values, integers, texts, lists and mappings have the same
    canonical text exactly if they are the same up to the order of keys (`canonical_eq_iff`). One way, sorting forgets
    the order of keys at every level. The other way, a canonical text tells the value whatever follows (`tell_canonical`):
    its first character gives the kind of the value, quotes and brackets give its end, and an integer ends where no
    digit follows. -/

namespace Appraisal

/-- The two texts tell `p`: where no digit follows either, they go on to equal texts only if `p` holds and what
    follows is the same. -/
def Text.Tell (s t : List Char) (p : Prop) : Prop :=
  ∀ r r', Stops Char.isDigit r → Stops Char.isDigit r' → s ++ r = t ++ r' → p ∧ r = r'

/-! ### Integers -/

namespace Number
open Text

theorem isDigit_of_mem_toDigits {n : Nat} {c : Char} (h : c ∈ Nat.toDigits 10 n) : c.isDigit = true :=
  Nat.isDigit_of_mem_toDigits (by decide) (Nat.le_refl _) h

theorem exists_toDigits_cons (n : Nat) : ∃ c cs, Nat.toDigits 10 n = c :: cs ∧ c.isDigit = true := by
  obtain ⟨c, cs, hdigits⟩ := List.exists_cons_of_ne_nil (Nat.toDigits_ne_nil (b := 10) (n := n))
  exact ⟨c, cs, hdigits, isDigit_of_mem_toDigits (hdigits ▸ List.mem_cons_self)⟩

theorem tell_toDigits (a b : Nat) : Tell (Nat.toDigits 10 a) (Nat.toDigits 10 b) (a = b) := by
  intro r r' hr hr' h
  have htext : Nat.toDigits 10 a = Nat.toDigits 10 b := by
    rw [← takeWhile_run (fun _ => isDigit_of_mem_toDigits) hr, h, takeWhile_run (fun _ => isDigit_of_mem_toDigits) hr']
  have hvalue := congrArg (Nat.ofDigitChars 10 · 0) htext
  simp only [Nat.ofDigitChars_ten_toDigits] at hvalue
  rw [htext] at h
  exact ⟨hvalue, List.append_cancel_left h⟩

theorem toDigits_append_ne_minus (a : Nat) (r cs : List Char) : Nat.toDigits 10 a ++ r ≠ '-' :: cs := by
  intro h
  obtain ⟨c, ds, hdigits, hc⟩ := exists_toDigits_cons a
  rw [hdigits, List.cons_append, List.cons.injEq] at h
  rw [h.1] at hc
  cases hc

theorem tell_intText (n m : Int) : Tell (intText n) (intText m) (n = m) := by
  intro r r' hr hr' h
  unfold intText at h
  split at h
  · rename_i hn
    split at h
    · rename_i hm
      rw [List.cons_append, List.cons_append, List.cons.injEq] at h
      obtain ⟨habs, hrest⟩ := tell_toDigits _ _ r r' hr hr' h.2
      exact ⟨by omega, hrest⟩
    · exact absurd h.symm (toDigits_append_ne_minus _ _ _)
  · rename_i hn
    split at h
    · exact absurd h (toDigits_append_ne_minus _ _ _)
    · rename_i hm
      obtain ⟨habs, hrest⟩ := tell_toDigits _ _ r r' hr hr' h
      exact ⟨by omega, hrest⟩

end Number

namespace Value
open Text

/-! ### Parts between commas -/

/-- A comma before each part. -/
def following (parts : List (List Char)) : List Char := parts.flatMap (',' :: ·)

theorem joined_cons (x : List Char) (xs : List (List Char)) : joined (x :: xs) = x ++ following xs := by
  induction xs generalizing x with
  | nil => simp [joined, following]
  | cons y ys ih =>
    rw [joined, ih y]
    · rfl
    · simp

section
variable {α : Type} {f : α → List Char} {P : α → α → Prop} {stop : Char} {xs ys : List α} {r r' : List Char}

theorem stops_following (hstop : stop.isDigit = false) (parts : List (List Char)) (r : List Char) :
    Stops Char.isDigit (following parts ++ stop :: r) := by
  cases parts with
  | nil => exact stops_cons.2 hstop
  | cons x xs => exact stops_cons.2 rfl

/-- Parts that tell what they are made from tell it after commas too. -/
theorem forall₂_of_following (hcomma : stop ≠ ',') (hstop : stop.isDigit = false)
    (htell : ∀ x ∈ xs, ∀ y ∈ ys, Tell (f x) (f y) (P x y))
    (h : following (xs.map f) ++ stop :: r = following (ys.map f) ++ stop :: r') : List.Forall₂ P xs ys ∧ r = r' := by
  induction xs generalizing ys with
  | nil =>
    cases ys with
    | nil => exact ⟨.nil, (List.cons.inj h).2⟩
    | cons y ys => exact absurd (List.cons.inj h).1 hcomma
  | cons x xs ih =>
    cases ys with
    | nil => exact absurd (List.cons.inj h).1.symm hcomma
    | cons y ys =>
      have hparts : f x ++ (following (xs.map f) ++ stop :: r) = f y ++ (following (ys.map f) ++ stop :: r') := by
        simpa [following] using h
      obtain ⟨hhead, hrest⟩ := htell x List.mem_cons_self y List.mem_cons_self _ _ (stops_following hstop _ r)
        (stops_following hstop _ r') hparts
      obtain ⟨htail, hafter⟩ := ih (fun a ha b hb => htell a (List.mem_cons_of_mem _ ha) b (List.mem_cons_of_mem _ hb))
        hrest
      exact ⟨.cons hhead htail, hafter⟩

/-- Parts that tell what they are made from, and begin with no closing bracket, tell it between brackets too. -/
theorem forall₂_of_joined (hcomma : stop ≠ ',') (hstop : stop.isDigit = false)
    (hopen : ∀ x, x ∈ xs ∨ x ∈ ys → ∀ r r', f x ++ r ≠ stop :: r')
    (htell : ∀ x ∈ xs, ∀ y ∈ ys, Tell (f x) (f y) (P x y))
    (h : joined (xs.map f) ++ stop :: r = joined (ys.map f) ++ stop :: r') : List.Forall₂ P xs ys ∧ r = r' := by
  cases xs with
  | nil =>
    cases ys with
    | nil => exact ⟨.nil, (List.cons.inj h).2⟩
    | cons y ys =>
      rw [List.map_cons, joined_cons, List.append_assoc] at h
      exact absurd h.symm (hopen y (.inr List.mem_cons_self) _ _)
  | cons x xs =>
    cases ys with
    | nil =>
      rw [List.map_cons, joined_cons, List.append_assoc] at h
      exact absurd h (hopen x (.inl List.mem_cons_self) _ _)
    | cons y ys =>
      rw [List.map_cons, List.map_cons, joined_cons, joined_cons] at h
      refine forall₂_of_following (f := f) hcomma hstop htell ?_
      simpa [following] using congrArg (',' :: ·) h

end

/-! ### The text of lists and mappings -/

theorem canonicalItems_eq (items : List Value) : canonicalItems items = items.map canonical := by
  induction items with
  | nil => rfl
  | cons v items ih => rw [canonicalItems, ih, List.map_cons]

/-- Entries with their values in canonical text. -/
def textEntries (es : List (String × Value)) : List (String × List Char) := es.map fun e => (e.1, canonical e.2)

theorem canonicalEntries_eq (entries : List (String × Value)) : canonicalEntries entries = textEntries entries := by
  induction entries with
  | nil => rfl
  | cons e entries ih =>
    rw [canonicalEntries, ih]
    rfl

/-- A key and its value in canonical text. -/
def entryText (e : String × Value) : List Char := member (e.1, canonical e.2)

theorem canonical_list (items : List Value) : canonical (.list items) = '[' :: joined (items.map canonical) ++ [']'] := by
  rw [canonical, canonicalItems_eq]

theorem canonical_map (entries : List (String × Value)) :
    canonical (.map entries) = '\x7b' :: joined ((sortEntries entries).map entryText) ++ ['\x7d'] := by
  rw [canonical, canonicalEntries_eq, textEntries, sortEntries_map fun e => canonical e.2, List.map_map]
  rfl

/-- A part stands between commas in a place that does not depend on what it says. -/
theorem exists_joined_append (xs ys : List (List Char)) :
    ∃ before after, ∀ part, joined (xs ++ part :: ys) = before ++ part ++ after := by
  cases xs with
  | nil =>
    refine ⟨[], following ys, fun part => ?_⟩
    rw [List.nil_append, joined_cons, List.nil_append]
  | cons x xs =>
    refine ⟨x ++ following xs ++ [','], following ys, fun part => ?_⟩
    rw [List.cons_append, joined_cons]
    simp [following]

/-- The value under a new key stands in a place of the text that does not depend on the value. -/
theorem exists_canonical_map_append {es : List (String × Value)} {key : String} (hkeys : (es.map Prod.fst).Nodup)
    (hnew : key ∉ es.map Prod.fst) :
    ∃ before after, ∀ v, canonical (.map (es ++ [(key, v)])) = before ++ canonical v ++ after := by
  obtain ⟨fore, aft, hsorted⟩ := exists_sortEntries_append hkeys hnew
  obtain ⟨before, after, hjoined⟩ := exists_joined_append (fore.map entryText) (aft.map entryText)
  refine ⟨'\x7b' :: before ++ quoted key ++ [':'], after ++ ['\x7d'], fun v => ?_⟩
  rw [canonical_map, hsorted, List.map_append, List.map_cons, hjoined]
  simp [entryText, member]

/-! ### The first character -/

inductive Kind where
  | null
  | bool
  | number
  | text
  | list
  | map
  deriving DecidableEq

def kind : Value → Kind
  | .null => .null
  | .bool _ => .bool
  | .number _ => .number
  | .text _ => .text
  | .list _ => .list
  | .map _ => .map

/-- The kind of the values whose canonical text begins with a character; no tree begins with a closing bracket. -/
def kindAt : Char → Option Kind
  | 'n' => some .null
  | 't' | 'f' => some .bool
  | '"' => some .text
  | '[' => some .list
  | '\x7b' => some .map
  | c => if c = '-' ∨ c.isDigit then some .number else none

theorem kindAt_of_isDigit {c : Char} (h : c.isDigit = true) : kindAt c = some .number := by
  unfold kindAt
  split
  iterate 6 · cases h
  exact if_pos (.inr h)

theorem kindAt_canonical {a : Value} (ha : IsTree a) : ∃ c cs, canonical a = c :: cs ∧ kindAt c = some a.kind := by
  cases ha with
  | null => exact ⟨_, _, rfl, rfl⟩
  | bool b => cases b <;> exact ⟨_, _, rfl, rfl⟩
  | int n =>
    show ∃ c cs, Number.intText n = c :: cs ∧ _
    unfold Number.intText
    split
    · exact ⟨_, _, rfl, rfl⟩
    · obtain ⟨c, ds, hdigits, hc⟩ := Number.exists_toDigits_cons n.natAbs
      exact ⟨c, ds, hdigits, kindAt_of_isDigit hc⟩
  | text s => exact ⟨_, _, rfl, rfl⟩
  | list each => exact ⟨_, _, canonical_list _, rfl⟩
  | map keys each => exact ⟨_, _, canonical_map _, rfl⟩

theorem kind_eq_of_append {a b : Value} (ha : IsTree a) (hb : IsTree b) {r r' : List Char}
    (h : canonical a ++ r = canonical b ++ r') : a.kind = b.kind := by
  obtain ⟨c, cs, hca, hkinda⟩ := kindAt_canonical ha
  obtain ⟨d, ds, hdb, hkindb⟩ := kindAt_canonical hb
  rw [hca, hdb, List.cons_append, List.cons_append, List.cons.injEq] at h
  rw [h.1, hkindb] at hkinda
  exact (Option.some.inj hkinda).symm

theorem canonical_append_ne {a : Value} (ha : IsTree a) {stop : Char} (hstop : kindAt stop = none) (r r' : List Char) :
    canonical a ++ r ≠ stop :: r' := by
  intro h
  obtain ⟨c, cs, hca, hkind⟩ := kindAt_canonical ha
  rw [hca, List.cons_append] at h
  rw [(List.cons.inj h).1, hstop] at hkind
  cases hkind

/-! ### From the text to the value -/

theorem same_map {es fs : List (String × Value)} (hkeys : (fs.map Prod.fst).Nodup)
    (h : List.Forall₂ (fun a b : String × Value => a.1 = b.1 ∧ Same a.2 b.2) (sortEntries es) (sortEntries fs)) :
    Same (.map es) (.map fs) := by
  have hmem : ∀ {gs : List (String × Value)} {k : String}, k ∈ gs.map Prod.fst ↔ k ∈ (sortEntries gs).map Prod.fst :=
    fun {gs k} => ((sortEntries_perm gs).map Prod.fst).mem_iff.symm
  have hsame : (sortEntries es).map Prod.fst = (sortEntries fs).map Prod.fst := by
    rw [← List.forall₂_eq_eq_eq, List.forall₂_map_left_iff, List.forall₂_map_right_iff]
    exact h.imp fun a b hab => hab.1
  refine .map (fun k => ?_) fun k v w hv hw => ?_
  · rw [hmem, hsame, ← hmem]
  · obtain ⟨i, hi, hvi⟩ := List.getElem_of_mem (mem_sortEntries.2 hv)
    have hi' : i < (sortEntries fs).length := h.length_eq ▸ hi
    obtain ⟨hfst, hsnd⟩ := h.get hi hi'
    simp only [List.get_eq_getElem, hvi] at hfst hsnd
    have hentry := eq_of_key_eq hkeys hw (mem_sortEntries.1 (List.getElem_mem hi')) hfst
    rwa [← hentry] at hsnd

theorem tell_entryText {e f : String × Value} (h : Tell (canonical e.2) (canonical f.2) (Same e.2 f.2)) :
    Tell (entryText e) (entryText f) (e.1 = f.1 ∧ Same e.2 f.2) := by
  intro r r' hr hr' heq
  rw [entryText, entryText, member, member, List.append_assoc, List.append_assoc] at heq
  obtain ⟨hkey, hvalue⟩ := quoted_append heq
  obtain ⟨hsame, hrest⟩ := h r r' hr hr' (List.cons.inj hvalue).2
  exact ⟨⟨hkey, hsame⟩, hrest⟩

theorem tell_canonical {a b : Value} (ha : IsTree a) (hb : IsTree b) : Tell (canonical a) (canonical b) (Same a b) := by
  -- On the first tree. The second begins alike, so it is of the same kind, and the parts of both are told in turn.
  induction ha generalizing b with
  | null =>
    intro r r' hr hr' h
    have hkind := kind_eq_of_append .null hb h
    cases hb with
    | null => exact ⟨.null, List.append_cancel_left h⟩
    | _ => cases hkind
  | bool x =>
    intro r r' hr hr' h
    have hkind := kind_eq_of_append (.bool x) hb h
    cases hb with
    | bool y =>
      have hxy : x = y := by
        cases x <;> cases y
        case false.false | true.true => rfl
        all_goals exact absurd (List.cons.inj h).1 (by decide)
      subst hxy
      exact ⟨.bool x, List.append_cancel_left h⟩
    | _ => cases hkind
  | int n =>
    intro r r' hr hr' h
    have hkind := kind_eq_of_append (.int n) hb h
    cases hb with
    | int m =>
      obtain ⟨rfl, hrest⟩ := Number.tell_intText _ _ r r' hr hr' h
      exact ⟨.number _, hrest⟩
    | _ => cases hkind
  | text s =>
    intro r r' hr hr' h
    have hkind := kind_eq_of_append (.text s) hb h
    cases hb with
    | text t =>
      obtain ⟨rfl, hrest⟩ := quoted_append h
      exact ⟨.text s, hrest⟩
    | _ => cases hkind
  | @list xs each ih =>
    intro r r' hr hr' h
    have hkind := kind_eq_of_append (.list each) hb h
    cases hb with
    | @list ys each' =>
      have hparts : joined (xs.map canonical) ++ ']' :: r = joined (ys.map canonical) ++ ']' :: r' := by
        simpa [canonical_list] using h
      have hopen : ∀ v, v ∈ xs ∨ v ∈ ys → ∀ s s', canonical v ++ s ≠ ']' :: s' :=
        fun v hv => canonical_append_ne (hv.elim (each v) (each' v)) rfl
      have htell : ∀ v ∈ xs, ∀ w ∈ ys, Tell (canonical v) (canonical w) (Same v w) :=
        fun v hv w hw => ih v hv (each' w hw)
      obtain ⟨hitems, hrest⟩ := forall₂_of_joined (by decide) rfl hopen htell hparts
      exact ⟨.list hitems, hrest⟩
    | _ => cases hkind
  | @map es keys each ih =>
    intro r r' hr hr' h
    have hkind := kind_eq_of_append (.map keys each) hb h
    cases hb with
    | @map fs keys' each' =>
      have hparts : joined ((sortEntries es).map entryText) ++ '\x7d' :: r =
          joined ((sortEntries fs).map entryText) ++ '\x7d' :: r' := by
        simpa [canonical_map] using h
      have hopen : ∀ (e : String × Value) (s s' : List Char), entryText e ++ s ≠ '\x7d' :: s' :=
        fun e s s' heq => absurd (List.cons.inj heq).1 (by decide)
      have htell : ∀ e ∈ sortEntries es, ∀ f ∈ sortEntries fs,
          Tell (entryText e) (entryText f) (e.1 = f.1 ∧ Same e.2 f.2) := by
        intro e he f hf
        exact tell_entryText (ih e (mem_sortEntries.1 he) (each' f (mem_sortEntries.1 hf)))
      obtain ⟨hentries, hrest⟩ := forall₂_of_joined (by decide) rfl (fun e _ => hopen e) htell hparts
      exact ⟨same_map keys' hentries, hrest⟩
    | _ => cases hkind

theorem same_of_canonical_eq {a b : Value} (ha : IsTree a) (hb : IsTree b) (h : canonical a = canonical b) :
    Same a b :=
  (tell_canonical ha hb [] [] stops_nil stops_nil (by rw [h])).1

/-! ### From the value to the text -/

theorem nodup_textEntries {es : List (String × Value)} (hkeys : (es.map Prod.fst).Nodup) :
    ((textEntries es).map Prod.fst).Nodup := by
  rwa [textEntries, List.map_map]

theorem mem_textEntries_of_mem {es fs : List (String × Value)} (hkeys : ∀ k ∈ es.map Prod.fst, k ∈ fs.map Prod.fst)
    (hvalues : ∀ k v w, (k, v) ∈ es → (k, w) ∈ fs → canonical v = canonical w) {e : String × List Char}
    (he : e ∈ textEntries es) : e ∈ textEntries fs := by
  obtain ⟨⟨k, v⟩, hv, rfl⟩ := List.mem_map.1 he
  obtain ⟨⟨_, w⟩, hw, rfl⟩ := List.mem_map.1 (hkeys k (List.mem_map_of_mem hv))
  exact List.mem_map.2 ⟨_, hw, Prod.ext rfl (hvalues _ v w hv hw).symm⟩

theorem canonical_eq_of_same {a b : Value} (ha : IsTree a) (hb : IsTree b) (h : Same a b) :
    canonical a = canonical b := by
  -- The texts of the parts are the same; for mappings this makes the entries permutations of each other.
  induction ha generalizing b with
  | null =>
    cases h
    rfl
  | bool x =>
    cases h
    rfl
  | int n =>
    cases h
    rfl
  | text s =>
    cases h
    rfl
  | @list xs each ih =>
    cases h with
    | @list _ ys items =>
      cases hb with
      | list each' =>
        have hitems : xs.map canonical = ys.map canonical := by
          refine List.ext_getElem (by simp [items.length_eq]) fun i hi hi' => ?_
          rw [List.getElem_map, List.getElem_map]
          exact ih _ (List.getElem_mem _) (each' _ (List.getElem_mem _)) (items.get _ _)
        rw [canonical_list, canonical_list, hitems]
  | @map es keys each ih =>
    cases h with
    | @map _ fs hkeys hvalues =>
      cases hb with
      | map keys' each' =>
        have hvalue : ∀ k v w, (k, v) ∈ es → (k, w) ∈ fs → canonical v = canonical w :=
          fun k v w hv hw => ih (k, v) hv (each' (k, w) hw) (hvalues k v w hv hw)
        have hperm : (textEntries es).Perm (textEntries fs) := by
          rw [List.perm_ext_iff_of_nodup (nodup_textEntries keys).of_map (nodup_textEntries keys').of_map]
          intro e
          constructor
          · exact mem_textEntries_of_mem (fun k => (hkeys k).1) hvalue
          · exact mem_textEntries_of_mem (fun k => (hkeys k).2) fun k w v hw hv => (hvalue k v w hv hw).symm
        rw [canonical, canonical, canonicalEntries_eq, canonicalEntries_eq,
          sortEntries_eq_of_perm (nodup_textEntries keys) hperm]

/-- Two trees have the same canonical text exactly if they differ in nothing but the order of keys. -/
theorem canonical_eq_iff {a b : Value} (ha : IsTree a) (hb : IsTree b) : canonical a = canonical b ↔ Same a b :=
  ⟨same_of_canonical_eq ha hb, canonical_eq_of_same ha hb⟩

theorem same_reordered :
    Same (.map [("b", .list [.int (-1), .bool true, .text "\"é\n"]), ("a", .null)])
      (.map [("a", .null), ("b", .list [.int (-1), .bool true, .text "\"é\n"])]) :=
  (canonical_eq_iff (by simp) (by simp)).1 <| by
    simp [canonical, canonicalEntries, sortEntries, List.mergeSort, List.MergeSort.Internal.splitInTwo]

end Value
end Appraisal
