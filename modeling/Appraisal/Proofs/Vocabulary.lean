import Appraisal.Proofs.OrderedMap
import Appraisal.Ruleset.Document

/-! What a spelling stands for. A vocabulary is made of its entries put one after another, so of the canonical names with
    a lower case the last one counts, and where there is none, the owner of the last synonym (`get?_ofAliases_iff`).
    Names are entered with their margins and looked up without them, and names may differ in letter case only; so a
    canonical name need not stand for itself. It does if it has no margins and is the last of its lower case
    (`resolve_eq_self_iff_last`), and then resolving a key twice is resolving it once. -/

namespace Appraisal.Vocabulary

variable {aliases : OrderedMap (List String)} {key name c d : String}

/-! ### Entries -/

/-- The synonyms of a table with their canonical names, in the order of declaration. -/
def synonyms (aliases : OrderedMap (List String)) : List (String × String) :=
  aliases.entries.flatMap fun e => e.2.map fun s => (s, e.1)

/-- What a spelling, as it is looked up, stands for. -/
inductive StandsFor (aliases : OrderedMap (List String)) : String → String → Prop
  | canonical {before after : List String} {c : String} (declared : aliases.keys = before ++ c :: after)
      (last : ∀ d ∈ after, lowerText d ≠ lowerText c) : StandsFor aliases (lowerText c) c
  | synonym {before after : List (String × String)} {s c : String} (free : ∀ d ∈ aliases.keys, lowerText d ≠ lookupKey s)
      (declared : synonyms aliases = before ++ (s, c) :: after) (last : ∀ e ∈ after, lookupKey e.1 ≠ lookupKey s) :
      StandsFor aliases (lookupKey s) c

theorem ofAliases_eq_ofList (aliases : OrderedMap (List String)) : ofAliases aliases = .ofList
    ((synonyms aliases).map (fun e => (lookupKey e.1, e.2)) ++ aliases.keys.map fun c => (lowerText c, c)) := by
  simp only [ofAliases, addSynonyms, OrderedMap.ofList, synonyms, List.foldl_append, List.foldl_map, List.foldl_flatMap]

theorem get?_ofAliases (aliases : OrderedMap (List String)) (key : String) : (ofAliases aliases).get? key =
    (aliases.keys.reverse.find? (lowerText · = key)).or
      (((synonyms aliases).reverse.find? (lookupKey ·.1 = key)).map Prod.snd) := by
  rw [ofAliases_eq_ofList, OrderedMap.get?_ofList, List.filter_append, List.getLast?_append, List.filter_map,
    List.filter_map, List.getLast?_map, List.getLast?_map, List.getLast?_filter, List.getLast?_filter, Option.map_or,
    Option.map_map, Option.map_map]
  simp only [Function.comp_def, Option.map_id']

/-- The last element of a list with a property. -/
theorem find?_reverse_eq_some_iff {α : Type} {p : α → Bool} {l : List α} {x : α} :
    l.reverse.find? p = some x ↔ ∃ before after, l = before ++ x :: after ∧ p x = true ∧ ∀ y ∈ after, p y = false := by
  rw [List.find?_eq_some_iff_append]
  constructor
  · rintro ⟨hx, as, bs, hl, has⟩
    refine ⟨bs.reverse, as.reverse, ?_, hx, fun y hy => by simpa using has y (List.mem_reverse.1 hy)⟩
    rw [← List.reverse_reverse l, hl]
    simp
  · rintro ⟨before, after, rfl, hx, hafter⟩
    exact ⟨hx, after.reverse, before.reverse, by simp, fun y hy => by simpa using hafter y (List.mem_reverse.1 hy)⟩

theorem exists_last {α : Type} {q : α → Prop} {l : List α} (h : ∃ x ∈ l, q x) :
    ∃ before x after, l = before ++ x :: after ∧ q x ∧ ∀ y ∈ after, ¬ q y := by
  classical
  obtain ⟨x, hx, hq⟩ := h
  have hsome : (l.reverse.find? (decide <| q ·)).isSome = true :=
    List.find?_isSome.2 ⟨x, List.mem_reverse.2 hx, decide_eq_true hq⟩
  obtain ⟨x, hx⟩ := Option.isSome_iff_exists.1 hsome
  obtain ⟨before, after, hl, hq, hafter⟩ := find?_reverse_eq_some_iff.1 hx
  exact ⟨before, x, after, hl, of_decide_eq_true hq, fun y hy => of_decide_eq_false (hafter y hy)⟩

theorem get?_ofAliases_iff : (ofAliases aliases).get? key = some c ↔ StandsFor aliases key c := by
  rw [get?_ofAliases, Option.or_eq_some_iff, Option.map_eq_some_iff]
  constructor
  · rintro (hc | ⟨hnone, ⟨s, c⟩, hs, rfl⟩)
    · obtain ⟨before, after, declared, hkey, last⟩ := find?_reverse_eq_some_iff.1 hc
      obtain rfl : lowerText c = key := of_decide_eq_true hkey
      exact .canonical declared fun d hd => of_decide_eq_false (last d hd)
    · obtain ⟨before, after, declared, hkey, last⟩ := find?_reverse_eq_some_iff.1 hs
      obtain rfl : lookupKey s = key := of_decide_eq_true hkey
      refine .synonym (fun d hd => ?_) declared fun e he => of_decide_eq_false (last e he)
      simpa using List.find?_eq_none.1 hnone d (List.mem_reverse.2 hd)
  · rintro (⟨declared, last⟩ | ⟨free, declared, last⟩)
    · refine .inl (find?_reverse_eq_some_iff.2 ⟨_, _, declared, by simp, fun d hd => ?_⟩)
      exact decide_eq_false (last d hd)
    · refine .inr ⟨?_, (_, c), find?_reverse_eq_some_iff.2 ⟨_, _, declared, by simp, fun e he => ?_⟩, rfl⟩
      · exact List.find?_eq_none.2 fun d hd => by simpa using free d (List.mem_reverse.1 hd)
      · exact decide_eq_false (last e he)

theorem StandsFor.unique (hc : StandsFor aliases key c) (hd : StandsFor aliases key d) : d = c := by
  rw [← get?_ofAliases_iff] at hc hd
  rw [hc] at hd
  exact (Option.some.inj hd).symm

theorem StandsFor.declared (h : StandsFor aliases key c) : c ∈ aliases.keys := by
  cases h with
  | canonical declared => simp [declared]
  | @synonym before after s c free declared =>
    have hmem : (s, c) ∈ synonyms aliases := by simp [declared]
    obtain ⟨e, he, hs⟩ := List.mem_flatMap.1 hmem
    obtain ⟨t, -, ht⟩ := List.mem_map.1 hs
    cases ht
    exact List.mem_map_of_mem he

/-! ### Resolving -/

theorem resolve_of_standsFor (h : StandsFor aliases (lookupKey name) c) : (ofAliases aliases).resolve name = c := by
  rw [resolve, get?_ofAliases_iff.2 h, Option.getD_some]

/-- What a name is resolved to is a canonical name, or stands for nothing. -/
theorem resolve_mem_or_unknown (aliases : OrderedMap (List String)) (name : String) :
    (ofAliases aliases).resolve name ∈ aliases.keys ∨
      lookupKey ((ofAliases aliases).resolve name) ∉ (ofAliases aliases).keys := by
  rw [resolve]
  cases hc : (ofAliases aliases).get? (lookupKey name) with
  | some c => exact .inl (get?_ofAliases_iff.1 hc).declared
  | none => exact .inr (Entries.not_mem_of_get?_eq_none hc)

theorem resolve_eq_self_iff : (ofAliases aliases).resolve name = name ↔
    ∀ c, StandsFor aliases (lookupKey name) c → c = name := by
  simp only [resolve, ← get?_ofAliases_iff]
  cases (ofAliases aliases).get? (lookupKey name) <;> simp

theorem resolveKey_text (v : Vocabulary) (name : String) : v.resolveKey (.text name) = .text (v.resolve name) := by
  rw [resolveKey, resolve, Value.display_text]
  cases v.get? (lookupKey name) <;> rfl

theorem resolveKey_of_standsFor {k : Value} (h : StandsFor aliases (lookupKey k.display) c) :
    (ofAliases aliases).resolveKey k = .text c := by
  rw [resolveKey, get?_ofAliases_iff.2 h, Option.elim_some]

theorem resolveKey_eq_self {k : Value} (h : ∀ c, ¬ StandsFor aliases (lookupKey k.display) c) :
    (ofAliases aliases).resolveKey k = k := by
  rw [resolveKey, Option.eq_none_iff_forall_ne_some.2 fun c hc => h c (get?_ofAliases_iff.1 hc), Option.elim_none]

/-! ### Keys -/

section
variable {v : Vocabulary} {k k' : Value}

/-- Spellings of a known name that are looked up alike are resolved alike. -/
theorem resolve_eq_of_lookupKey {name name' : String} (h : lookupKey name = lookupKey name')
    (hknown : lookupKey name ∈ v.keys) : v.resolve name = v.resolve name' := by
  obtain ⟨c, hc⟩ : ∃ c, v.get? (lookupKey name) = some c := by
    refine Option.ne_none_iff_exists'.1 fun hnone => ?_
    exact Entries.not_mem_of_get?_eq_none hnone hknown
  rw [resolve, resolve, ← h, hc, Option.getD_some, Option.getD_some]

/-- The last canonical name that is looked up like the key counts. -/
theorem resolveKey_canonical (h : ∃ c ∈ aliases.keys, lowerText c = lookupKey k.display) :
    ∃ before c after, aliases.keys = before ++ c :: after ∧ lowerText c = lookupKey k.display ∧
      (∀ d ∈ after, lowerText d ≠ lookupKey k.display) ∧ (ofAliases aliases).resolveKey k = .text c := by
  obtain ⟨before, c, after, declared, hc, last⟩ := exists_last h
  refine ⟨before, c, after, declared, hc, last, resolveKey_of_standsFor ?_⟩
  rw [← hc] at last ⊢
  exact .canonical declared last

/-- Where there is none, the owner of the last synonym that is looked up like the key counts. -/
theorem resolveKey_synonym (free : ∀ c ∈ aliases.keys, lowerText c ≠ lookupKey k.display)
    (h : ∃ e ∈ synonyms aliases, lookupKey e.1 = lookupKey k.display) :
    ∃ before e after, synonyms aliases = before ++ e :: after ∧ lookupKey e.1 = lookupKey k.display ∧
      (∀ d ∈ after, lookupKey d.1 ≠ lookupKey k.display) ∧ (ofAliases aliases).resolveKey k = .text e.2 := by
  obtain ⟨before, ⟨s, c⟩, after, declared, hs, last⟩ := exists_last h
  refine ⟨before, (s, c), after, declared, hs, last, resolveKey_of_standsFor ?_⟩
  rw [← hs] at free last ⊢
  exact .synonym free declared last

theorem resolveKey_unknown (free : ∀ c ∈ aliases.keys, lowerText c ≠ lookupKey k.display)
    (unused : ∀ e ∈ synonyms aliases, lookupKey e.1 ≠ lookupKey k.display) : (ofAliases aliases).resolveKey k = k := by
  refine resolveKey_eq_self fun c hc => ?_
  generalize hn : lookupKey k.display = n at hc free unused
  cases hc with
  | canonical declared last => exact free c (by simp [declared]) rfl
  | @synonym before after s c _ declared last => exact unused (s, c) (by simp [declared]) rfl

/-- Keys that are looked up alike are resolved to the same declared name, or both are left as they are. -/
theorem resolveKey_alike (h : lookupKey k.display = lookupKey k'.display) :
    (∃ c ∈ aliases.keys, (ofAliases aliases).resolveKey k = .text c ∧ (ofAliases aliases).resolveKey k' = .text c) ∨
    ((ofAliases aliases).resolveKey k = k ∧ (ofAliases aliases).resolveKey k' = k') := by
  by_cases hk : ∃ c, StandsFor aliases (lookupKey k.display) c
  · obtain ⟨c, hc⟩ := hk
    exact .inl ⟨c, hc.declared, resolveKey_of_standsFor hc, resolveKey_of_standsFor (h ▸ hc)⟩
  · rw [not_exists] at hk
    exact .inr ⟨resolveKey_eq_self hk, resolveKey_eq_self (h ▸ hk)⟩

end

/-- Resolving a key again changes nothing exactly if what it stands for stands for itself. -/
theorem resolveKey_idempotent_iff {k : Value} :
    (ofAliases aliases).resolveKey ((ofAliases aliases).resolveKey k) = (ofAliases aliases).resolveKey k ↔
      ∀ c, StandsFor aliases (lookupKey k.display) c → (ofAliases aliases).resolve c = c := by
  by_cases hk : ∃ c, StandsFor aliases (lookupKey k.display) c
  · obtain ⟨c, hc⟩ := hk
    rw [resolveKey_of_standsFor hc, resolveKey_text, Value.text.injEq]
    constructor
    · intro hself d hd
      rwa [hc.unique hd]
    · exact fun h => h c hc
  · have hnone : ∀ c, ¬ StandsFor aliases (lookupKey k.display) c := fun c hc => hk ⟨c, hc⟩
    rw [resolveKey_eq_self hnone, resolveKey_eq_self hnone]
    exact iff_of_true rfl fun c hc => absurd hc (hnone c)

/-! ### Canonical names -/

theorem lookupKey_of_trimmed (h : stripText c = c) : lookupKey c = lowerText c := by
  rw [lookupKey, h]

theorem exists_last_of_lower (hc : c ∈ aliases.keys) : ∃ d before after, lowerText d = lowerText c ∧
    aliases.keys = before ++ d :: after ∧ ∀ e ∈ after, lowerText e ≠ lowerText d := by
  have hsome : ∃ d ∈ aliases.keys, lowerText d = lowerText c := ⟨c, hc, rfl⟩
  obtain ⟨before, d, after, declared, hlower, last⟩ := exists_last hsome
  exact ⟨d, before, after, hlower, declared, hlower ▸ last⟩

/-- A canonical name without margins stands for itself exactly if no later one differs from it in letter case only. -/
theorem resolve_eq_self_iff_last (hc : c ∈ aliases.keys) (htrimmed : stripText c = c) :
    (ofAliases aliases).resolve c = c ↔
      ∃ before after, aliases.keys = before ++ c :: after ∧ ∀ d ∈ after, lowerText d ≠ lowerText c := by
  constructor
  · intro hself
    obtain ⟨d, before, after, hlower, declared, last⟩ := exists_last_of_lower hc
    have hstands : StandsFor aliases (lookupKey c) d := by
      rw [lookupKey_of_trimmed htrimmed, ← hlower]
      exact .canonical declared last
    rw [resolve_of_standsFor hstands] at hself
    subst hself
    exact ⟨before, after, declared, last⟩
  · rintro ⟨before, after, declared, last⟩
    refine resolve_of_standsFor ?_
    rw [lookupKey_of_trimmed htrimmed]
    exact .canonical declared last

theorem resolve_eq_self_of_nodup (hc : c ∈ aliases.keys) (htrimmed : stripText c = c)
    (hdistinct : (aliases.keys.map lowerText).Nodup) : (ofAliases aliases).resolve c = c := by
  obtain ⟨before, after, declared⟩ := List.append_of_mem hc
  refine (resolve_eq_self_iff_last hc htrimmed).2 ⟨before, after, declared, fun d hd hlower => ?_⟩
  rw [declared, List.map_append, List.nodup_append, List.map_cons, List.nodup_cons] at hdistinct
  exact hdistinct.2.1.1 (hlower ▸ List.mem_map_of_mem hd)

/-- A canonical name is resolved to itself exactly if what it is looked up by stands for no other one, and so, if it has no
    margins, exactly if no later one differs from it in letter case only. Resolving a key again changes nothing exactly
    if what the key stands for is resolved to itself. So both laws hold where the canonical names have no margins
    and differ in more than letter case. -/
theorem canonical_names_settled (r : Ruleset) :
    (∀ c ∈ r.aliases.keys, r.vocabulary.resolve c = c ↔ ∀ d, StandsFor r.aliases (lookupKey c) d → d = c) ∧
    (∀ c ∈ r.aliases.keys, stripText c = c → (r.vocabulary.resolve c = c ↔
      ∃ before after, r.aliases.keys = before ++ c :: after ∧ ∀ d ∈ after, lowerText d ≠ lowerText c)) ∧
    (∀ k, r.vocabulary.resolveKey (r.vocabulary.resolveKey k) = r.vocabulary.resolveKey k ↔
      ∀ c, StandsFor r.aliases (lookupKey k.display) c → r.vocabulary.resolve c = c) ∧
    ((∀ c ∈ r.aliases.keys, stripText c = c) → (r.aliases.keys.map lowerText).Nodup →
      (∀ c ∈ r.aliases.keys, r.vocabulary.resolve c = c) ∧
      ∀ k, r.vocabulary.resolveKey (r.vocabulary.resolveKey k) = r.vocabulary.resolveKey k) := by
  refine ⟨fun c _ => resolve_eq_self_iff, fun c => resolve_eq_self_iff_last, fun k => resolveKey_idempotent_iff, ?_⟩
  intro htrimmed hdistinct
  have hself : ∀ c ∈ r.aliases.keys, r.vocabulary.resolve c = c := fun c hc =>
    resolve_eq_self_of_nodup hc (htrimmed c hc) hdistinct
  exact ⟨hself, fun k => resolveKey_idempotent_iff.2 fun c hc => hself c hc.declared⟩

/-- A ruleset in which a synonym has margins and another is a canonical name. -/
def crossed : Ruleset :=
  ⟨"", "", "", .standard, .ofList [("Phase", [" State ", "rating"]), ("Rating", ["phase"])], .empty, [], .empty⟩

theorem canonical_names_settled_crossed : crossed.vocabulary.resolve "STATE" = "Phase" ∧
    (∀ c ∈ ["Phase", "Rating"], crossed.vocabulary.resolve c = c) ∧
    ∀ k, crossed.vocabulary.resolveKey (crossed.vocabulary.resolveKey k) = crossed.vocabulary.resolveKey k := by
  obtain ⟨-, -, -, hsettled⟩ := canonical_names_settled crossed
  obtain ⟨hself, hagain⟩ := hsettled (by decide +kernel) (by decide +kernel)
  exact ⟨by decide +kernel, hself, hagain⟩

/-- A document with two canonical names that differ in letter case only. -/
def cased : Value := .map [("aliases", .map [("Foo", .list [.text "x"]), ("FOO", .null)])]

/-- Of two canonical names that differ in letter case only, the first stands for the second. -/
theorem canonical_name_resolved_to_other : ∃ r, Ruleset.read cased = .accepted r ∧ "Foo" ∈ r.aliases.keys ∧
    r.vocabulary.resolve "Foo" = "FOO" ∧ r.vocabulary.resolve "x" = "Foo" ∧
    r.vocabulary.resolve (r.vocabulary.resolve "x") ≠ r.vocabulary.resolve "x" := by
  refine ⟨⟨"", "", "", .standard, .ofList [("Foo", ["x"]), ("FOO", [])], .empty, [], .empty⟩, rfl, ?_⟩
  decide +kernel

end Appraisal.Vocabulary
