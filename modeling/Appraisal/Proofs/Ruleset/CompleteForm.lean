import Appraisal.Proofs.OrderedMap
import Appraisal.Proofs.Ruleset.Conditions
import Appraisal.Proofs.Ruleset.Parts
import Appraisal.Ruleset.Document
import Appraisal.Value.DistinctKeys

/-! The complete form of a ruleset document. Reading fills in what is absent, writes labels as text, gives every
    condition its kind and keeps what has no meaning as extras. What is read is normal: no extra has the key of a
    field, and the text of a condition is empty only if its extras have no parts of a comparison (`normal_of_read`).
    A normal ruleset is read back from the document that is written of it (`read_toValue`), so the second reading
    changes nothing (`complete_form_read_back`). -/

namespace Appraisal

/-! ### Items and entries of documents -/

namespace Checked
variable {α : Type} {v : Value}

/-- What holds of every item that is accepted holds of all items of a list that is. -/
theorem forall_of_list {check : Value → Checked α} {P : α → Prop} {as : List α}
    (hcheck : ∀ {w a}, w.DistinctKeys → check w = accepted a → P a) (hv : v.DistinctKeys)
    (h : list check v = accepted as) : ∀ a ∈ as, P a := by
  obtain ⟨vs, rfl, hvs⟩ := list_eq_accepted.1 h
  intro a ha
  obtain ⟨w, hw, hread⟩ := exists_of_forall₂ hvs.flip ha
  exact hcheck (Value.distinctKeys_list.1 hv w hw) hread

theorem exists_entries {name : String} {f : List (String × Value) → Checked α} {a : α} (hv : v.DistinctKeys)
    (h : (record name v).andThen f = accepted a) :
    ∃ entries, (Value.map entries).DistinctKeys ∧ f entries = accepted a := by
  obtain ⟨entries, hrecord, h⟩ := andThen_eq_accepted.1 h
  obtain rfl := record_eq_accepted.1 hrecord
  exact ⟨entries, hv, h⟩

end Checked

/-! ### Extras -/

/-- The extras can stand beside fields with the keys `known`: their keys are others, and no value among them has double
    keys. -/
structure Beside (known : List String) (extras : OrderedMap Value) : Prop where
  lacks : ∀ k ∈ known, k ∉ extras.keys
  each : ∀ e ∈ extras.entries, e.2.DistinctKeys

theorem beside_empty (known : List String) : Beside known .empty :=
  ⟨fun _ _ => List.not_mem_nil, fun _ h => nomatch h⟩

theorem mem_keys_extrasBeyond {known : List String} {entries : List (String × Value)} {k : String} :
    k ∈ (extrasBeyond known entries).keys ↔ k ∈ entries.map Prod.fst ∧ k ∉ known := by
  rw [extrasBeyond, OrderedMap.keys_ofList, List.mem_eraseDups]
  simp

theorem entries_extrasBeyond {entries : List (String × Value)} (hdistinct : (entries.map Prod.fst).Nodup)
    (known : List String) : (extrasBeyond known entries).entries = entries.filter fun e => !known.contains e.1 :=
  OrderedMap.entries_ofList ((List.filter_sublist.map _).nodup hdistinct)

theorem beside_extrasBeyond {entries : List (String × Value)} (h : (Value.map entries).DistinctKeys)
    (known : List String) : Beside known (extrasBeyond known entries) := by
  obtain ⟨hdistinct, heach⟩ := Value.distinctKeys_map.1 h
  refine ⟨fun k hk hmem => (mem_keys_extrasBeyond.1 hmem).2 hk, fun e he => ?_⟩
  rw [entries_extrasBeyond hdistinct] at he
  exact heach e (List.mem_of_mem_filter he)

theorem get?_extrasBeyond {known : List String} {entries : List (String × Value)} {key : String}
    (hdistinct : (entries.map Prod.fst).Nodup) (hkey : key ∉ known) :
    Entries.get? key (extrasBeyond known entries).entries = Entries.get? key entries := by
  rw [entries_extrasBeyond hdistinct]
  exact Entries.get?_filter (p := fun k => !known.contains k) entries (by simpa using hkey)

section
variable {known : List String} {fields : List (String × Value)} {extras : OrderedMap Value}

/-- The extras behind the fields of a record are what is read of them. -/
theorem Beside.extrasBeyond_append (h : Beside known extras) (hknown : fields.map Prod.fst = known) :
    extrasBeyond known (fields ++ extras.entries) = extras := by
  subst hknown
  have hfields : fields.filter (fun e => !(fields.map Prod.fst).contains e.1) = [] := by
    refine List.filter_eq_nil_iff.2 fun e he => ?_
    simpa using ⟨e.2, he⟩
  have hextras : extras.entries.filter (fun e => !(fields.map Prod.fst).contains e.1) = extras.entries := by
    refine List.filter_eq_self.2 fun e he => ?_
    have hnew : e.1 ∉ fields.map Prod.fst := fun hmem => h.lacks e.1 hmem (List.mem_map_of_mem he)
    simpa using hnew
  rw [extrasBeyond, List.filter_append, hfields, hextras, List.nil_append, OrderedMap.ofList_entries]

theorem Beside.distinctKeys_append (h : Beside known extras) (hknown : fields.map Prod.fst = known)
    (hdistinct : known.Nodup) (heach : ∀ e ∈ fields, e.2.DistinctKeys) :
    (Value.map (fields ++ extras.entries)).DistinctKeys := by
  subst hknown
  refine .map ?_ fun e he => ?_
  · rw [List.map_append, List.nodup_append]
    refine ⟨hdistinct, extras.distinct, fun k hk l hl hkl => h.lacks k hk ?_⟩
    rw [hkl]
    exact hl
  · rcases List.mem_append.1 he with he | he
    · exact heach e he
    · exact h.each e he

end

/-! ### Conditions -/

namespace Condition

/-- What holds of conditions that are read. -/
inductive Normal : Condition → Prop
  | comparison (field : String) (op : Operator) {value : Value} (distinct : value.DistinctKeys) :
    Normal (.comparison field op value)
  | unparsed {raw : String} {extras : OrderedMap Value} (beside : Beside ["kind", "raw"] extras)
    (parts : raw = "" → joinedParts extras.entries = "") : Normal (.unparsed raw extras)

theorem joinedParts_congr {es fs : List (String × Value)}
    (h : ∀ key ∈ ["field", "op", "value"], Entries.get? key es = Entries.get? key fs) :
    joinedParts es = joinedParts fs := by
  have hgiven : ["field", "op", "value"].filterMap (given? es) = ["field", "op", "value"].filterMap (given? fs) :=
    List.filterMap_congr fun key hkey => by rw [given?, given?, h key hkey]
  rw [joinedParts, joinedParts, hgiven]

/-- The raw text is empty only where the parts of the comparison give no text either. -/
theorem joinedParts_of_rawValue {entries : List (String × Value)} (h : rawValue entries = .text "") :
    joinedParts entries = "" := by
  simp only [rawValue] at h
  split at h
  · exact Value.text.inj h
  · rename_i hfilled
    rw [h] at hfilled
    exact absurd rfl hfilled

theorem normal_of_readComparison {entries : List (String × Value)} {c : Condition}
    (hentries : (Value.map entries).DistinctKeys) (h : readComparison entries = .accepted c) : c.Normal := by
  obtain ⟨field, s, op, -, -, -, rfl⟩ := readComparison_eq_accepted h
  refine .comparison field op ?_
  cases hvalue : Entries.get? "value" entries with
  | none => exact .null
  | some v => exact hentries.of_get? hvalue

theorem normal_of_readUnparsed {entries : List (String × Value)} {c : Condition}
    (hentries : (Value.map entries).DistinctKeys) (h : readUnparsed entries = .accepted c) : c.Normal := by
  unfold readUnparsed at h
  obtain ⟨_, raw, h₁, hraw, rfl⟩ := Checked.ap_eq_accepted.1 h
  obtain ⟨_, -, rfl⟩ := Checked.fmap_eq_accepted.1 h₁
  have hvalue := Checked.text_eq_accepted.1 (Checked.within_eq_accepted.1 hraw)
  refine .unparsed (beside_extrasBeyond hentries _) fun hempty => ?_
  -- The parts of a comparison are extras of the text, so the second reading joins the same parts.
  have hparts : joinedParts (extrasBeyond ["kind", "raw"] entries).entries = joinedParts entries :=
    joinedParts_congr fun key hkey =>
      get?_extrasBeyond (Value.distinctKeys_map.1 hentries).1 (by revert hkey key; decide)
  rw [hparts]
  exact joinedParts_of_rawValue (hempty ▸ hvalue)

theorem normal_of_read {v : Value} {c : Condition} (hv : v.DistinctKeys) (h : Condition.read v = .accepted c) :
    c.Normal := by
  unfold Condition.read at h
  split at h
  · cases h
  · replace h := Checked.within_eq_accepted.1 h
    split at h
    · exact normal_of_readComparison hv h
    · exact normal_of_readUnparsed hv h
    · exact normal_of_readUnparsed (by simp) h
    · cases h

theorem rawValue_written {raw : String} {extras : OrderedMap Value} (kind : Value)
    (parts : raw = "" → joinedParts extras.entries = "") :
    rawValue ([("kind", kind), ("raw", .text raw)] ++ extras.entries) = .text raw := by
  by_cases hempty : raw = ""
  · subst hempty
    have hparts : joinedParts ([("kind", kind), ("raw", .text "")] ++ extras.entries) = joinedParts extras.entries :=
      joinedParts_congr (by simp [Entries.get?])
    show Value.text (joinedParts _) = .text ""
    rw [hparts, parts rfl]
  · simp [rawValue, Entries.get?, Value.isBlank, hempty]

theorem read_toValue {c : Condition} (h : c.Normal) : Condition.read c.toValue = .accepted c := by
  cases h with
  | comparison field op distinct => cases op <;> rfl
  | @unparsed raw extras beside parts =>
    show Checked.within _ (readUnparsed ([("kind", .text Kind.unparsed.name), ("raw", .text raw)] ++ extras.entries)) = _
    rw [Checked.within_eq_accepted, readUnparsed, rawValue_written _ parts, beside.extrasBeyond_append rfl]
    rfl

theorem Normal.distinctKeys_toValue {c : Condition} (h : c.Normal) : c.toValue.DistinctKeys := by
  cases h with
  | comparison field op distinct => simp [toValue, distinct]
  | unparsed beside parts => exact beside.distinctKeys_append rfl (by decide) (by simp)

end Condition

/-! ### Consequences -/

namespace Consequence

theorem beside_of_read {v : Value} {c : Consequence} (hv : v.DistinctKeys) (h : Consequence.read v = .accepted c) :
    Beside ["judgement"] c.extras := by
  have hentries : ∃ entries, (Value.map entries).DistinctKeys ∧ ofEntries entries = .accepted c := by
    unfold Consequence.read at h
    split at h
    · exact ⟨[], by simp, h⟩
    · exact Checked.exists_entries hv h
  obtain ⟨entries, hdistinct, h⟩ := hentries
  obtain ⟨judgement, -, rfl⟩ := Checked.fmap_eq_accepted.1 h
  exact beside_extrasBeyond hdistinct _

theorem read_toValue {c : Consequence} (h : Beside ["judgement"] c.extras) : Consequence.read c.toValue = .accepted c := by
  show ofEntries ([("judgement", .text c.judgement)] ++ c.extras.entries) = _
  rw [ofEntries, h.extrasBeyond_append rfl]
  rfl

theorem distinctKeys_toValue {c : Consequence} (h : Beside ["judgement"] c.extras) : c.toValue.DistinctKeys := by
  show (Value.map ([("judgement", .text c.judgement)] ++ c.extras.entries)).DistinctKeys
  exact h.distinctKeys_append rfl (by decide) (by simp)

end Consequence

/-! ### Rules -/

namespace Rule

/-- What holds of rules that are read. -/
structure Normal (rule : Rule) : Prop where
  conditions : ∀ c ∈ rule.conditions, c.Normal
  consequence : Beside ["judgement"] rule.consequence.extras
  extras : Beside (knownKeys "if") rule.extras

theorem ReadFrom.beside {entries : List (String × Value)} {rule : Rule} (h : ReadFrom entries rule)
    (hentries : (Value.map entries).DistinctKeys) : Beside (knownKeys "if") rule.extras := by
  have hread := beside_extrasBeyond hentries (knownKeys (conditionsKey entries))
  rw [h.extras] at hread
  refine ⟨fun k hk hmem => ?_, hread.each⟩
  by_cases hif : k = "if"
  · subst hif
    -- The conditions are written under `if` also where they were read from another key; then there was no `if`.
    rcases conditionsKey_cases entries with hkey | hnone
    · exact hread.lacks "if" (by simp [knownKeys, hkey]) hmem
    · rw [← h.extras, mem_keys_extrasBeyond] at hmem
      exact Entries.not_mem_of_get?_eq_none hnone hmem.1
  · refine hread.lacks k ?_ hmem
    simp only [knownKeys, List.mem_cons, hif, false_or] at hk ⊢
    tauto

theorem normal_conditions_of_read {v : Value} {cs : List Condition} (hv : v.DistinctKeys)
    (h : readConditions v = .accepted cs) : ∀ c ∈ cs, c.Normal := by
  unfold readConditions at h
  split at h
  · cases h
    simp
  · exact Checked.forall_of_list Condition.normal_of_read hv h

theorem normal_of_read {v : Value} {rule : Rule} (hv : v.DistinctKeys) (h : Rule.read v = .accepted rule) :
    rule.Normal := by
  obtain ⟨entries, hentries, hrule⟩ := Checked.exists_entries hv h
  have hparts := ofEntries_eq_accepted.1 hrule
  refine ⟨?_, ?_, hparts.beside hentries⟩
  · rcases Checked.exists_of_field hparts.conditions with habsent | ⟨w, hw, hread⟩
    · simp [← Checked.accepted.inj habsent]
    · exact normal_conditions_of_read (hentries.of_get? hw) hread
  · rcases Checked.exists_of_field hparts.consequence with habsent | ⟨w, hw, hread⟩
    · rw [← Checked.accepted.inj habsent]
      exact beside_empty _
    · exact Consequence.beside_of_read (hentries.of_get? hw) hread

theorem read_toValue {rule : Rule} (h : rule.Normal) : Rule.read rule.toValue = .accepted rule := by
  have hconditions : readConditions (.list (rule.conditions.map Condition.toValue)) = .accepted rule.conditions :=
    Checked.list_map fun c hc => Condition.read_toValue (h.conditions c hc)
  refine ofEntries_eq_accepted.2 ⟨rfl, rfl, rfl, rfl, ?_, ?_, ?_, ?_, ?_, h.extras.extrasBeyond_append rfl⟩
  · exact Checked.field_of_get? rfl (Checked.optionalText_textOr _)
  · exact Checked.field_of_get? rfl hconditions
  · exact Checked.field_of_get? rfl (Consequence.read_toValue h.consequence)
  · exact Checked.field_of_get? rfl (Checked.optionalText_textOr _)
  · exact Checked.field_of_get? rfl (Checked.optionalText_textOr _)

theorem Normal.distinctKeys_toValue {rule : Rule} (h : rule.Normal) : rule.toValue.DistinctKeys := by
  have hconditions : (Value.list (rule.conditions.map Condition.toValue)).DistinctKeys := by
    simpa using fun c hc => (h.conditions c hc).distinctKeys_toValue
  refine h.extras.distinctKeys_append rfl (by decide) ?_
  simp [hconditions, Consequence.distinctKeys_toValue h.consequence]

end Rule

/-! ### Defaults -/

namespace Defaults

theorem beside_of_read {v : Value} {d : Defaults} (hv : v.DistinctKeys) (h : Defaults.read v = .accepted d) :
    Beside ["level"] d.extras := by
  have hentries : ∃ entries, (Value.map entries).DistinctKeys ∧ ofEntries entries = .accepted d := by
    unfold Defaults.read at h
    split at h
    · exact ⟨[], by simp, h⟩
    · exact Checked.exists_entries hv h
  obtain ⟨entries, hdistinct, h⟩ := hentries
  obtain ⟨level, -, rfl⟩ := Checked.fmap_eq_accepted.1 h
  exact beside_extrasBeyond hdistinct _

theorem read_toValue {d : Defaults} (h : Beside ["level"] d.extras) : Defaults.read d.toValue = .accepted d := by
  show ofEntries ([("level", .text d.level)] ++ d.extras.entries) = _
  rw [ofEntries, h.extrasBeyond_append rfl]
  rfl

theorem distinctKeys_toValue {d : Defaults} (h : Beside ["level"] d.extras) : d.toValue.DistinctKeys := by
  show (Value.map ([("level", .text d.level)] ++ d.extras.entries)).DistinctKeys
  exact h.distinctKeys_append rfl (by decide) (by simp)

end Defaults

/-! ### Rulesets -/

namespace Ruleset

/-- What holds of rulesets that are read. -/
structure Normal (r : Ruleset) : Prop where
  defaults : Beside ["level"] r.defaults.extras
  rules : ∀ rule ∈ r.rules, rule.Normal
  ids : firstRepeated [] r.rules = none
  extras : Beside knownKeys r.extras

theorem normal_rules_of_read {v : Value} {rules : List Rule} (hv : v.DistinctKeys)
    (h : readRules v = .accepted rules) : ∀ rule ∈ rules, rule.Normal := by
  unfold readRules at h
  split at h
  · cases h
    simp
  · exact Checked.forall_of_list Rule.normal_of_read hv h

/-- What is read of a document is normal. -/
theorem normal_of_read {doc : Value} {r : Ruleset} (hdoc : doc.DistinctKeys) (h : Ruleset.read doc = .accepted r) :
    r.Normal := by
  obtain ⟨⟨entries, rfl, hparts⟩, hids⟩ := read_eq_accepted.1 h
  refine ⟨?_, ?_, hids, hparts.extras ▸ beside_extrasBeyond hdoc _⟩
  · rcases Checked.exists_of_field hparts.defaults with habsent | ⟨w, hw, hread⟩
    · rw [← Checked.accepted.inj habsent]
      exact beside_empty _
    · exact Defaults.beside_of_read (hdoc.of_get? hw) hread
  · rcases Checked.exists_of_field hparts.rules with habsent | ⟨w, hw, hread⟩
    · simp [← Checked.accepted.inj habsent]
    · exact normal_rules_of_read (hdoc.of_get? hw) hread

theorem readSeries_texts (ss : List String) : readSeries (.texts ss) = .accepted ss := by
  cases ss with
  | nil => rfl
  | cons s ss =>
    show Checked.accepted (((s :: ss).map Value.text).map Value.display) = _
    simp [Function.comp_def]

theorem readSeriesEntries_texts (es : List (String × List String)) :
    readSeriesEntries (es.map fun e => (e.1, Value.texts e.2)) = .accepted es := by
  induction es with
  | nil => rfl
  | cons e es ih =>
    rw [List.map_cons, readSeriesEntries, readSeries_texts, ih]
    rfl

theorem readTable_tableValue (table : OrderedMap (List String)) : readTable (tableValue table) = .accepted table := by
  show (readSeriesEntries (table.entries.map fun e => (e.1, Value.texts e.2))).map OrderedMap.ofList = _
  rw [readSeriesEntries_texts, Checked.map, OrderedMap.ofList_entries]

/-- A normal ruleset is read back from its complete form. -/
theorem read_toValue {r : Ruleset} (h : r.Normal) : Ruleset.read r.toValue = .accepted r := by
  have hrules : readRules (.list (r.rules.map Rule.toValue)) = .accepted r.rules :=
    Checked.list_map fun rule hrule => Rule.read_toValue (h.rules rule hrule)
  refine read_eq_accepted.2 ⟨⟨_, rfl, rfl, rfl, rfl, ?_, ?_, ?_, ?_, h.extras.extrasBeyond_append rfl⟩, h.ids⟩
  · exact Checked.field_of_get? rfl (Defaults.read_toValue h.defaults)
  · exact Checked.field_of_get? rfl (readTable_tableValue _)
  · exact Checked.field_of_get? rfl (readTable_tableValue _)
  · exact Checked.field_of_get? rfl hrules

theorem distinctKeys_tableValue (table : OrderedMap (List String)) : (tableValue table).DistinctKeys := by
  refine .map (table.map Value.texts).distinct fun e he => ?_
  obtain ⟨f, -, rfl⟩ := List.mem_map.1 he
  exact Value.distinctKeys_texts f.2

theorem Normal.distinctKeys_toValue {r : Ruleset} (h : r.Normal) : r.toValue.DistinctKeys := by
  have hrules : (Value.list (r.rules.map Rule.toValue)).DistinctKeys := by
    simpa using fun rule hrule => (h.rules rule hrule).distinctKeys_toValue
  refine h.extras.distinctKeys_append rfl (by decide) ?_
  simp [hrules, Defaults.distinctKeys_toValue h.defaults, distinctKeys_tableValue]

/-- The complete form of a document that is accepted is a document too, and the same ruleset is read from it: the
    ruleset with its order of aliases and rules, the kinds and texts of its conditions and all extras. -/
theorem complete_form_read_back {doc : Value} {r : Ruleset} (hdoc : doc.DistinctKeys)
    (h : Ruleset.read doc = .accepted r) : r.toValue.DistinctKeys ∧ Ruleset.read r.toValue = .accepted r :=
  have normal := normal_of_read hdoc h
  ⟨normal.distinctKeys_toValue, read_toValue normal⟩

/-- A document in which nearly every part is written in another form: a synonym of an operator, numbers as ids and as
    names of a field, sections that are `null`, conditions that are texts or incomplete, conditions under another key
    than `if`, and extras. -/
def loose : Value := .map [
  ("spec", .int 2), ("version", .bool true), ("source", .null), ("defaults", .null), ("owner", .text "lab"),
  ("aliases", .map [("Phase", .list [.int 1, .null, .text "phase"]), ("Rating", .text "ab"), ("Empty", .null)]),
  ("ordinal_scales", .null),
  ("rules", .list [
    .map [("id", .int 7), ("name", .null), ("note", .list [.null]), ("conditions", .list [
      .map [("field", .text "Phase"), ("op", .text " == "), ("value", .int 3), ("unit", .text "K")],
      .text "looks dry", .text "",
      .map [("field", .text "Phase"), ("op", .text "=>"), ("raw", .null)],
      .map [("value", .text ""), ("raw", .list [])]])],
    .map [("id", .text "R2"), ("if", .null), ("conditions", .list [.text "unused"]), ("then", .null),
      ("level", .text "soft")]])]

theorem complete_form_read_back_loose : loose.DistinctKeys ∧
    ∃ r, Ruleset.read loose = .accepted r ∧ r.toValue.DistinctKeys ∧ Ruleset.read r.toValue = .accepted r := by
  have hdistinct : loose.DistinctKeys := by simp [loose, Value.int]
  have hread : ∃ r, Ruleset.read loose = .accepted r := ⟨_, by rfl⟩
  obtain ⟨r, hr⟩ := hread
  exact ⟨hdistinct, r, hr, complete_form_read_back hdistinct hr⟩

end Ruleset
end Appraisal
