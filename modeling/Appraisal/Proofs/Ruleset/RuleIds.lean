import Appraisal.Proofs.Decision
import Appraisal.Proofs.Ruleset.Parts

/-! Rule ids are a key. A document whose fields are in order is refused exactly if two of its rules have one id, once
    numbers and truth values are written as text, and the first id that is repeated is named (`checkIds_eq_rejected`).
    So in every ruleset an id has one rule at most, by which it is looked up and cited (`Keyed`). -/

namespace Appraisal

namespace Rule

/-- The id that a value of a document stands for. -/
def idOf? : Value → Option String
  | .text s => some s
  | .number n => some (String.ofList n.text)
  | .bool b => some (if b then "True" else "False")
  | _ => none

/-- The id in the document of a rule. -/
def declaredId? (doc : Value) : Option String := (doc.field? "id").bind idOf?

theorem idOf?_of_label {v : Value} {id : String} (h : Checked.label v = .accepted id) : idOf? v = some id := by
  cases v with
  | bool b =>
    cases h
    cases b <;> rfl
  | number n =>
    cases h
    rfl
  | text s =>
    cases h
    rfl
  | _ => cases h

theorem declaredId?_of_read {doc : Value} {rule : Rule} (h : read doc = .accepted rule) :
    declaredId? doc = some rule.id := by
  obtain ⟨entries, hdoc, hentries⟩ := Checked.andThen_eq_accepted.1 h
  obtain rfl := Checked.record_eq_accepted.1 hdoc
  obtain ⟨v, hv, hlabel⟩ := Checked.field_eq_accepted.1 (ofEntries_eq_accepted.1 hentries).id
  rw [declaredId?, Value.field?, hv]
  exact idOf?_of_label hlabel

end Rule

namespace Ruleset

/-- The documents of the rules in the entries of a ruleset document. -/
def ruleDocuments (entries : List (String × Value)) : List Value :=
  match Entries.get? "rules" entries with
  | some (.list docs) => docs
  | _ => []

variable {entries : List (String × Value)} {r : Ruleset} {rules : List Rule}

theorem forall₂_of_readRules {docs : List Value} (h : readRules (.list docs) = .accepted rules) :
    List.Forall₂ (fun doc rule => Rule.read doc = .accepted rule) docs rules := by
  have hlist : Checked.list Rule.read (.list docs) = .accepted rules := h
  obtain ⟨docs', hdocs, heach⟩ := Checked.list_eq_accepted.1 hlist
  cases hdocs
  exact heach

theorem rule_by_rule (h : Checked.field entries "rules" (.accepted []) readRules = .accepted rules) :
    List.Forall₂ (fun doc rule => Rule.read doc = .accepted rule) (ruleDocuments entries) rules := by
  unfold ruleDocuments
  unfold Checked.field at h
  cases hv : Entries.get? "rules" entries with
  | none =>
    rw [hv] at h
    cases h
    exact .nil
  | some v =>
    rw [hv] at h
    have hread : readRules v = .accepted rules := Checked.within_eq_accepted.1 h
    cases v with
    | null =>
      cases hread
      exact .nil
    | list docs => exact forall₂_of_readRules hread
    | _ => cases hread

theorem ReadFrom.declared_ids (h : ReadFrom entries r) :
    (ruleDocuments entries).map Rule.declaredId? = r.rules.map (some ·.id) := by
  have heach := rule_by_rule h.rules
  generalize ruleDocuments entries = docs at heach
  generalize r.rules = rules at heach
  induction heach with
  | nil => rfl
  | cons hfirst _ ih => rw [List.map_cons, List.map_cons, Rule.declaredId?_of_read hfirst, ih]

/-! ### Refusal -/

theorem read_map (h : ofEntries entries = .accepted r) : Ruleset.read (.map entries) = checkIds r := by
  rw [Ruleset.read, Checked.record, Checked.andThen, h]
  rfl

theorem checkIds_eq_rejected {issues : List Issue} : checkIds r = .rejected issues ↔
    ∃ before id after, r.rules.map (·.id) = before ++ id :: after ∧ before.Nodup ∧ id ∈ before ∧
      issues = [⟨[], .repeatedRule id⟩] := by
  unfold checkIds
  cases hrepeated : firstRepeated [] r.rules with
  | none =>
    refine iff_of_false nofun ?_
    rintro ⟨before, id, after, hids, hnodup, hid, -⟩
    have hsome := firstRepeated_eq_some_iff.2 ⟨before, after, hids, hnodup, hid⟩
    rw [hrepeated] at hsome
    cases hsome
  | some id =>
    constructor
    · intro h
      cases h
      obtain ⟨before, after, hids, hnodup, hid⟩ := firstRepeated_eq_some_iff.1 hrepeated
      exact ⟨before, id, after, hids, hnodup, hid, rfl⟩
    · rintro ⟨before, id', after, hids, hnodup, hid, rfl⟩
      have hsome := firstRepeated_eq_some_iff.2 ⟨before, after, hids, hnodup, hid⟩
      rw [hrepeated] at hsome
      cases hsome
      rfl

theorem exists_checkIds_rejected_iff : (∃ issues, checkIds r = .rejected issues) ↔ ¬ (r.rules.map (·.id)).Nodup := by
  rw [← firstRepeated_eq_none_iff, checkIds]
  cases firstRepeated [] r.rules with
  | none => simp
  | some id => simp [Checked.flawed]

/-! ### Looking up and citing -/

/-- An id has one rule at most. Its rule is found by it and no rule by another text, and whatever the fields are, the
    rules that trigger are cited under distinct ids in the order of declaration. -/
structure Keyed (r : Ruleset) : Prop where
  distinct : (r.rules.map (·.id)).Nodup
  found : ∀ rule ∈ r.rules, r.rule? rule.id = some rule
  unknown : ∀ id, id ∉ r.rules.map (·.id) → r.rule? id = none
  cited : ∀ fields derivations, (r.decide fields derivations).triggeredIds.Nodup ∧
    (r.decide fields derivations).triggeredIds.Sublist (r.rules.map (·.id))

theorem rule?_eq_none_iff {id : String} : r.rule? id = none ↔ id ∉ r.rules.map (·.id) := by
  simp [rule?]

theorem mem_of_rule? {id : String} {rule : Rule} (h : r.rule? id = some rule) : rule ∈ r.rules ∧ rule.id = id := by
  have hid := List.find?_some h
  exact ⟨List.mem_of_find?_eq_some h, eq_of_beq hid⟩

/-- What is cited are rules that are declared, in their order. -/
theorem triggeredIds_sublist (r : Ruleset) (fields : OrderedMap Value) (derivations : List Derivation) :
    (r.decide fields derivations).triggeredIds.Sublist (r.rules.map (·.id)) := by
  rw [Decision.triggeredIds, decide_triggered, List.map_map]
  exact List.filter_sublist.map _

theorem keyed_of_nodup (h : (r.rules.map (·.id)).Nodup) : r.Keyed where
  distinct := h
  found rule hrule := by
    cases hfound : r.rule? rule.id with
    | none => exact absurd (List.mem_map_of_mem hrule) (rule?_eq_none_iff.1 hfound)
    | some other =>
      obtain ⟨hother, hid⟩ := mem_of_rule? hfound
      rw [List.inj_on_of_nodup_map h hother hrule hid]
  unknown _ := rule?_eq_none_iff.2
  cited fields derivations :=
    ⟨h.sublist (triggeredIds_sublist r fields derivations), triggeredIds_sublist r fields derivations⟩

/-- A document whose fields are in order is refused exactly if two of its rules have one id as text, and then for the
    first rule in the order of declaration whose id stands before; else it is accepted. In a ruleset that is accepted
    the ids are a key. -/
theorem rule_ids_are_key :
    (∀ entries r, ofEntries entries = .accepted r →
      let ids := r.rules.map (·.id)
      (ruleDocuments entries).map Rule.declaredId? = ids.map some ∧
      ((∃ issues, Ruleset.read (.map entries) = .rejected issues) ↔
        ∃ i j, i < j ∧ j < ids.length ∧ ids[i]? = ids[j]?) ∧
      (∀ issues, Ruleset.read (.map entries) = .rejected issues ↔ ∃ before id after, ids = before ++ id :: after ∧
        before.Nodup ∧ id ∈ before ∧ issues = [⟨[], .repeatedRule id⟩]) ∧
      (Ruleset.read (.map entries) = .accepted r ↔ ids.Nodup)) ∧
    ∀ doc r, Ruleset.read doc = .accepted r → r.Keyed := by
  refine ⟨fun entries r h => ?_, fun doc r h => keyed_of_nodup (nodup_ids_of_read h)⟩
  intro ids
  have hdeclared : (ruleDocuments entries).map Rule.declaredId? = ids.map some := by
    rw [(ofEntries_eq_accepted.1 h).declared_ids, List.map_map]
    rfl
  rw [read_map h]
  refine ⟨hdeclared, ?_, fun issues => checkIds_eq_rejected, ?_⟩
  · rw [exists_checkIds_rejected_iff, List.nodup_iff_getElem?_ne_getElem?]
    simp only [not_forall, ne_eq, not_not, exists_prop]
    rfl
  · rw [checkIds_eq_accepted, firstRepeated_eq_none_iff]
    simp [ids]

/-- A number and a text that is written like it. -/
def alike : List (String × Value) :=
  [("rules", .list [.map [("id", .text "R")], .map [("id", .int 7)], .map [("id", .text "7")]])]

/-- They are one id, which is refused; without the second of them the ids are a key. -/
theorem rule_ids_are_key_alike :
    (∃ r, ofEntries alike = .accepted r ∧ Ruleset.read (.map alike) = .rejected [⟨[], .repeatedRule "7"⟩]) ∧
    ∃ r, Ruleset.read (.map [("rules", .list [.map [("id", .text "R")], .map [("id", .int 7)]])]) = .accepted r ∧
      r.Keyed := by
  obtain ⟨hfields, hkeyed⟩ := rule_ids_are_key
  constructor
  · obtain ⟨r, hr, hids⟩ : ∃ r, ofEntries alike = .accepted r ∧ r.rules.map (·.id) = ["R", "7", "7"] :=
      ⟨_, rfl, by decide +kernel⟩
    obtain ⟨-, -, hrejected, -⟩ := hfields alike r hr
    exact ⟨r, hr, (hrejected _).2 ⟨["R", "7"], "7", [], hids, by decide, by decide, rfl⟩⟩
  · have hread : ∃ r, Ruleset.read (.map [("rules", .list [.map [("id", .text "R")], .map [("id", .int 7)]])]) =
      .accepted r := ⟨_, rfl⟩
    obtain ⟨r, hr⟩ := hread
    exact ⟨r, hr, hkeyed _ r hr⟩

end Ruleset
end Appraisal
