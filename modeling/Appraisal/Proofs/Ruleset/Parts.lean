import Appraisal.Proofs.Ruleset.Checked
import Appraisal.Ruleset.Document
import Mathlib.Data.List.Nodup

/-! Rules and rulesets by their parts. A rule is accepted exactly if each of its parts is, from its own field, and so is
    a ruleset, in which besides no rule id occurs twice (`Ruleset.read_eq_accepted`). -/

namespace Appraisal

namespace Rule

/-- The keys of a rule that have a meaning, where `key` holds the conditions. -/
def knownKeys (key : String) : List String :=
  ["id", "name", "group", "cit", "level", key, "then", "rationale", "status"]

/-- The parts of a rule, each from its field. -/
structure ReadFrom (entries : List (String × Value)) (rule : Rule) : Prop where
  id : Checked.field entries "id" (.flawed .missing) Checked.label = .accepted rule.id
  name : Checked.field entries "name" (.accepted "") (Checked.textOr "") = .accepted rule.name
  group : Checked.field entries "group" (.accepted "") (Checked.textOr "") = .accepted rule.group
  cit : Checked.field entries "cit" (.accepted "") (Checked.textOr "") = .accepted rule.cit
  level : Checked.field entries "level" (.accepted none) Checked.optionalText = .accepted rule.level
  conditions : Checked.field entries (conditionsKey entries) (.accepted []) readConditions = .accepted rule.conditions
  consequence : Checked.field entries "then" (.accepted .none) Consequence.read = .accepted rule.consequence
  rationale : Checked.field entries "rationale" (.accepted none) Checked.optionalText = .accepted rule.rationale
  status : Checked.field entries "status" (.accepted none) Checked.optionalText = .accepted rule.status
  extras : extrasBeyond (knownKeys (conditionsKey entries)) entries = rule.extras

theorem ofEntries_eq_accepted {entries : List (String × Value)} {rule : Rule} :
    ofEntries entries = .accepted rule ↔ ReadFrom entries rule := by
  constructor
  · intro h
    unfold ofEntries at h
    obtain ⟨_, status, h₁, hstatus, rfl⟩ := Checked.ap_eq_accepted.1 h
    obtain ⟨_, rationale, h₂, hrationale, rfl⟩ := Checked.ap_eq_accepted.1 h₁
    obtain ⟨_, consequence, h₃, hconsequence, rfl⟩ := Checked.ap_eq_accepted.1 h₂
    obtain ⟨_, conditions, h₄, hconditions, rfl⟩ := Checked.ap_eq_accepted.1 h₃
    obtain ⟨_, level, h₅, hlevel, rfl⟩ := Checked.ap_eq_accepted.1 h₄
    obtain ⟨_, cit, h₆, hcit, rfl⟩ := Checked.ap_eq_accepted.1 h₅
    obtain ⟨_, group, h₇, hgroup, rfl⟩ := Checked.ap_eq_accepted.1 h₆
    obtain ⟨_, name, h₈, hname, rfl⟩ := Checked.ap_eq_accepted.1 h₇
    obtain ⟨id, hid, rfl⟩ := Checked.fmap_eq_accepted.1 h₈
    exact ⟨hid, hname, hgroup, hcit, hlevel, hconditions, hconsequence, hrationale, hstatus, rfl⟩
  · intro h
    have hextras := h.extras
    rw [knownKeys] at hextras
    rw [ofEntries, h.id, h.name, h.group, h.cit, h.level, h.conditions, h.consequence, h.rationale, h.status, hextras]
    rfl

theorem conditionsKey_cases (entries : List (String × Value)) :
    conditionsKey entries = "if" ∨ Entries.get? "if" entries = none := by
  unfold conditionsKey
  split
  · rename_i h
    exact .inr (by simpa using (Bool.and_eq_true_iff.1 h).1)
  · exact .inl rfl

end Rule

namespace Ruleset

/-- The parts of a ruleset, each from its field. -/
structure ReadFrom (entries : List (String × Value)) (r : Ruleset) : Prop where
  spec : Checked.field entries "spec" (.accepted "") readLabel = .accepted r.spec
  version : Checked.field entries "version" (.accepted "") readLabel = .accepted r.version
  source : Checked.field entries "source" (.accepted "") readLabel = .accepted r.source
  defaults : Checked.field entries "defaults" (.accepted .standard) Defaults.read = .accepted r.defaults
  aliases : Checked.field entries "aliases" (.accepted .empty) readTable = .accepted r.aliases
  scales : Checked.field entries "ordinal_scales" (.accepted .empty) readTable = .accepted r.scales
  rules : Checked.field entries "rules" (.accepted []) readRules = .accepted r.rules
  extras : extrasBeyond knownKeys entries = r.extras

theorem ofEntries_eq_accepted {entries : List (String × Value)} {r : Ruleset} :
    ofEntries entries = .accepted r ↔ ReadFrom entries r := by
  constructor
  · intro h
    unfold ofEntries at h
    obtain ⟨_, rules, h₁, hrules, rfl⟩ := Checked.ap_eq_accepted.1 h
    obtain ⟨_, scales, h₂, hscales, rfl⟩ := Checked.ap_eq_accepted.1 h₁
    obtain ⟨_, aliases, h₃, haliases, rfl⟩ := Checked.ap_eq_accepted.1 h₂
    obtain ⟨_, defaults, h₄, hdefaults, rfl⟩ := Checked.ap_eq_accepted.1 h₃
    obtain ⟨_, source, h₅, hsource, rfl⟩ := Checked.ap_eq_accepted.1 h₄
    obtain ⟨_, version, h₆, hversion, rfl⟩ := Checked.ap_eq_accepted.1 h₅
    obtain ⟨spec, hspec, rfl⟩ := Checked.fmap_eq_accepted.1 h₆
    exact ⟨hspec, hversion, hsource, hdefaults, haliases, hscales, hrules, rfl⟩
  · intro h
    rw [ofEntries, h.spec, h.version, h.source, h.defaults, h.aliases, h.scales, h.rules, h.extras]
    rfl

/-! ### Repeated ids -/

section
variable {seen : List String} {rule : Rule} {rules : List Rule} {id : String}

theorem firstRepeated_of_mem (h : rule.id ∈ seen) : firstRepeated seen (rule :: rules) = some rule.id :=
  if_pos (List.contains_iff_mem.2 h)

theorem firstRepeated_of_not_mem (h : rule.id ∉ seen) :
    firstRepeated seen (rule :: rules) = firstRepeated (rule.id :: seen) rules :=
  if_neg (mt List.contains_iff_mem.1 h)

/-- An id that is met goes to those that were seen. -/
theorem reverse_append_seen (id : String) (before seen : List String) :
    (id :: before).reverse ++ seen = before.reverse ++ id :: seen := by
  rw [List.reverse_cons, List.append_assoc, List.singleton_append]

theorem firstRepeated_none_iff (hseen : seen.Nodup) :
    firstRepeated seen rules = none ↔ ((rules.map (·.id)).reverse ++ seen).Nodup := by
  induction rules generalizing seen with
  | nil => simpa [firstRepeated] using hseen
  | cons rule rest ih =>
    rw [List.map_cons, reverse_append_seen]
    by_cases hid : rule.id ∈ seen
    · rw [firstRepeated_of_mem hid]
      refine iff_of_false nofun fun hnodup => ?_
      exact (List.nodup_cons.1 (List.nodup_append.1 hnodup).2.1).1 hid
    · rw [firstRepeated_of_not_mem hid]
      exact ih (List.nodup_cons.2 ⟨hid, hseen⟩)

/-- The repeated id was seen, or stands before, and none of those before it is repeated. -/
theorem firstRepeated_some_iff (hseen : seen.Nodup) :
    firstRepeated seen rules = some id ↔ ∃ before after, rules.map (·.id) = before ++ id :: after ∧
      (before.reverse ++ seen).Nodup ∧ id ∈ before.reverse ++ seen := by
  induction rules generalizing seen with
  | nil => simp [firstRepeated]
  | cons rule rest ih =>
    rw [List.map_cons]
    by_cases hid : rule.id ∈ seen
    · rw [firstRepeated_of_mem hid, Option.some.injEq]
      constructor
      · rintro rfl
        exact ⟨[], _, rfl, hseen, hid⟩
      · rintro ⟨before, after, hids, hnodup, -⟩
        cases before with
        | nil => exact (List.cons.inj hids).1
        | cons b before =>
          obtain ⟨rfl, -⟩ := List.cons.inj hids
          rw [reverse_append_seen] at hnodup
          exact absurd hid (List.nodup_cons.1 (List.nodup_append.1 hnodup).2.1).1
    · rw [firstRepeated_of_not_mem hid, ih (List.nodup_cons.2 ⟨hid, hseen⟩)]
      constructor
      · rintro ⟨before, after, hids, hbefore⟩
        rw [← reverse_append_seen] at hbefore
        exact ⟨rule.id :: before, after, congrArg (rule.id :: ·) hids, hbefore⟩
      · rintro ⟨before, after, hids, hbefore⟩
        cases before with
        | nil =>
          obtain ⟨rfl, -⟩ := List.cons.inj hids
          exact absurd hbefore.2 hid
        | cons b before =>
          obtain ⟨rfl, hrest⟩ := List.cons.inj hids
          rw [reverse_append_seen] at hbefore
          exact ⟨before, after, hrest, hbefore⟩

theorem firstRepeated_eq_none_iff : firstRepeated [] rules = none ↔ (rules.map (·.id)).Nodup := by
  rw [firstRepeated_none_iff .nil, List.append_nil, List.nodup_reverse]

theorem firstRepeated_eq_some_iff : firstRepeated [] rules = some id ↔
    ∃ before after, rules.map (·.id) = before ++ id :: after ∧ before.Nodup ∧ id ∈ before := by
  rw [firstRepeated_some_iff .nil]
  simp only [List.append_nil, List.nodup_reverse, List.mem_reverse]

end

theorem checkIds_eq_accepted {r s : Ruleset} :
    checkIds r = .accepted s ↔ r = s ∧ firstRepeated [] s.rules = none := by
  unfold checkIds
  split
  · rename_i hrepeated
    refine iff_of_false nofun ?_
    rintro ⟨rfl, hnone⟩
    rw [hrepeated] at hnone
    cases hnone
  · rename_i hnone
    constructor
    · intro h
      cases h
      exact ⟨rfl, hnone⟩
    · rintro ⟨rfl, -⟩
      rfl

/-- A document that is accepted is a mapping with the parts of the ruleset, and no rule id occurs twice. -/
theorem read_eq_accepted {doc : Value} {r : Ruleset} : Ruleset.read doc = .accepted r ↔
    (∃ entries, doc = .map entries ∧ ReadFrom entries r) ∧ firstRepeated [] r.rules = none := by
  simp only [Ruleset.read, Checked.andThen_eq_accepted, Checked.record_eq_accepted, ofEntries_eq_accepted,
    checkIds_eq_accepted]
  constructor
  · rintro ⟨s, ⟨entries, hdoc, hparts⟩, rfl, hids⟩
    exact ⟨⟨entries, hdoc, hparts⟩, hids⟩
  · rintro ⟨⟨entries, hdoc, hparts⟩, hids⟩
    exact ⟨r, ⟨entries, hdoc, hparts⟩, rfl, hids⟩

theorem nodup_ids_of_read {doc : Value} {r : Ruleset} (h : Ruleset.read doc = .accepted r) :
    (r.rules.map (·.id)).Nodup :=
  firstRepeated_eq_none_iff.1 (read_eq_accepted.1 h).2

end Ruleset
end Appraisal
