import Appraisal.Citation.Record
import Appraisal.Proofs.Citation.Hash
import Appraisal.Proofs.Value.Canonical
import Mathlib.Tactic.MkIffOfInductiveProp

/-! What a record tells. The canonical text of a record gives everything that it covers and depends on nothing else
    (`record_tells_covered`); so ids that begin alike are equal for decisions that agree in what is covered, and
    otherwise only if two texts collide under the hash. -/

namespace Appraisal

open Value

theorem Verdict.name_inj {a b : Verdict} : a.name = b.name ↔ a = b := by
  cases a <;> cases b <;> decide

/-! ### Derivations -/

namespace Derivation

theorem same_contributorValue {c e : Contributor} : Same (contributorValue c) (contributorValue e) ↔ c = e := by
  obtain ⟨field, level⟩ := c
  obtain ⟨field', level'⟩ := e
  simp [contributorValue, same_map_cons]

theorem same_contributors {cs es : List Contributor} :
    Same (.list (cs.map contributorValue)) (.list (es.map contributorValue)) ↔ cs = es :=
  same_list_map fun _ _ _ _ => same_contributorValue

theorem same_recordValue {d e : Derivation} (hd : d.value.IsScalar) : Same d.recordValue e.recordValue ↔ d = e := by
  obtain ⟨name, value, contributors⟩ := d
  obtain ⟨name', value', contributors'⟩ := e
  cases contributors <;> cases contributors' <;>
    simp [recordValue, same_map_cons, hd.same_iff, same_contributors]

theorem isTree_recordValue {d : Derivation} (hd : d.value.IsScalar) : IsTree d.recordValue := by
  obtain ⟨name, value, contributors⟩ := d
  cases contributors <;> simp [recordValue, contributorValue, hd.isTree]

end Derivation

/-! ### Records -/

/-- Every derived value is a scalar. -/
def Decision.DerivesScalars (d : Decision) : Prop := ∀ x ∈ d.derivations, x.value.IsScalar

namespace Citation

/-- What a record says of a rule: its id, its citation and its level. -/
def Ref.cited (r : Ref) : String × String × String := (r.id, r.cit, r.level)

theorem Ref.same_recordValue {r s : Ref} : Same r.recordValue s.recordValue ↔ r.cited = s.cited := by
  simp [Ref.recordValue, Ref.cited, same_map_cons]

theorem same_primary {p q : Option Ref} :
    Same (p.elim .null Ref.recordValue) (q.elim .null Ref.recordValue) ↔ p.map Ref.cited = q.map Ref.cited := by
  cases p with
  | none =>
    cases q with
    | none => simp
    | some s => simp [Ref.recordValue]
  | some r =>
    cases q with
    | none => simp [Ref.recordValue]
    | some s => simp [Ref.same_recordValue]

/-- Agreement of two decisions, with their rulesets and stamps, in all that a record covers. -/
@[mk_iff agree_iff]
structure Agree (d₁ : Decision) (r₁ : Ruleset) (s₁ : Option String) (d₂ : Decision) (r₂ : Ruleset)
    (s₂ : Option String) : Prop where
  spec : r₁.spec = r₂.spec
  version : r₁.version = r₂.version
  source : r₁.source = r₂.source
  verdict : d₁.verdict = d₂.verdict
  judgement : d₁.judgement = d₂.judgement
  primary : d₁.primary.map Ref.cited = d₂.primary.map Ref.cited
  triggered : d₁.triggeredIds = d₂.triggeredIds
  derivations : d₁.derivations = d₂.derivations
  stamp : s₁ = s₂

/-- Two texts that the hash confuses. -/
def Collide (a b : List Char) : Prop := a ≠ b ∧ hash a = hash b

section
variable {d₁ d₂ : Decision} {r₁ r₂ : Ruleset} {s₁ s₂ : Option String}

theorem same_identityValue : Same (identityValue r₁) (identityValue r₂) ↔
    r₁.spec = r₂.spec ∧ r₁.version = r₂.version ∧ r₁.source = r₂.source := by
  simp [identityValue, same_map_cons]

theorem isTree_record {d : Decision} (h : d.DerivesScalars) (r : Ruleset) (s : Option String) : IsTree (record d r s) := by
  have hprimary : IsTree (d.primary.elim .null Ref.recordValue) := by
    cases d.primary with
    | none => exact .null
    | some ref => simp [Ref.recordValue]
  have hderivations : IsTree (.list (d.derivations.map Derivation.recordValue)) := by
    refine .list fun v hv => ?_
    obtain ⟨x, hx, rfl⟩ := List.mem_map.1 hv
    exact Derivation.isTree_recordValue (h x hx)
  have htriggered : IsTree (.texts d.triggeredIds) := by simp [texts]
  have hidentity : IsTree (identityValue r) := by simp [identityValue]
  cases s with
  | none => simp [record, hprimary, hderivations, htriggered, hidentity]
  | some s => simp [record, hprimary, hderivations, htriggered, hidentity]

theorem same_record_iff (h₁ : d₁.DerivesScalars) : Same (record d₁ r₁ s₁) (record d₂ r₂ s₂) ↔ Agree d₁ r₁ s₁ d₂ r₂ s₂ := by
  have hderivations : Same (.list (d₁.derivations.map Derivation.recordValue))
      (.list (d₂.derivations.map Derivation.recordValue)) ↔ d₁.derivations = d₂.derivations :=
    same_list_map fun x hx _ _ => Derivation.same_recordValue (h₁ x hx)
  rw [agree_iff]
  cases s₁ <;> cases s₂ <;>
    simp [record, same_map_cons, same_identityValue, Verdict.name_inj, same_primary, same_texts, hderivations,
      and_assoc]

theorem canonical_record_eq_iff (h₁ : d₁.DerivesScalars) (h₂ : d₂.DerivesScalars) :
    (record d₁ r₁ s₁).canonical = (record d₂ r₂ s₂).canonical ↔ Agree d₁ r₁ s₁ d₂ r₂ s₂ := by
  have htree₁ := isTree_record h₁ r₁ s₁
  have htree₂ := isTree_record h₂ r₂ s₂
  rw [← same_record_iff h₁]
  exact ⟨same_of_canonical_eq htree₁ htree₂, canonical_eq_of_same htree₁ htree₂⟩

/-- The text of a record gives all that the record covers and nothing else. Ids of decisions that do not agree in it
    can be equal through a collision only. -/
theorem record_tells_covered (h₁ : d₁.DerivesScalars) (h₂ : d₂.DerivesScalars) (head : String) :
    ((record d₁ r₁ s₁).canonical = (record d₂ r₂ s₂).canonical ↔ Agree d₁ r₁ s₁ d₂ r₂ s₂) ∧
    (recordId head (record d₁ r₁ s₁) = recordId head (record d₂ r₂ s₂) ↔
      Agree d₁ r₁ s₁ d₂ r₂ s₂ ∨ Collide (record d₁ r₁ s₁).canonical (record d₂ r₂ s₂).canonical) := by
  have htext : (record d₁ r₁ s₁).canonical = (record d₂ r₂ s₂).canonical ↔ Agree d₁ r₁ s₁ d₂ r₂ s₂ :=
    canonical_record_eq_iff h₁ h₂
  refine ⟨htext, ?_⟩
  rw [recordId, recordId, idOf_eq_iff, ← htext, Collide]
  constructor
  · intro hhash
    by_cases heq : (record d₁ r₁ s₁).canonical = (record d₂ r₂ s₂).canonical
    · exact .inl heq
    · exact .inr ⟨heq, hhash⟩
  · rintro (heq | ⟨-, hhash⟩)
    · rw [heq]
    · exact hhash

/-- A flag that is true is told from the number one; the tier and the name of the primary rule are not told. -/
theorem record_tells_covered_flag :
    let r : Ruleset := ⟨"SSE", "1.0", "notes", .standard, .empty, .empty, [], .empty⟩
    let d (tier : Tier) (name : String) (flag : Value) : Decision :=
      ⟨.qualified, tier, "Review", some ⟨"R1", name, "", "N1", "hard", .hard, "Review", none, none⟩, [], [], [],
        [⟨"AnyCriticalFlag", flag, some [⟨"rating.A", "critical"⟩]⟩]⟩
    (record (d .hardOther "Path" (.bool true)) r none).canonical ≠
        (record (d .hardOther "Path" (.int 1)) r none).canonical ∧
      recordId "SSE-" (record (d .hardOther "Path" (.bool true)) r none) =
        recordId "SSE-" (record (d .soft "Gap" (.bool true)) r none) := by
  intro r d
  have hscalar : ∀ tier name flag, flag.IsScalar → (d tier name flag).DerivesScalars := by
    intro tier name flag hflag x hx
    rw [List.mem_singleton] at hx
    subst hx
    exact hflag
  have htrue := hscalar .hardOther "Path" (.bool true) (.bool true)
  constructor
  · intro heq
    have hagree := (record_tells_covered htrue (hscalar .hardOther "Path" (.int 1) (.int 1)) "SSE-").1.1 heq
    have hderivations := hagree.derivations
    cases hderivations
  · exact (record_tells_covered htrue (hscalar .soft "Gap" (.bool true) (.bool true)) "SSE-").2.2 (.inl
      ⟨rfl, rfl, rfl, rfl, rfl, rfl, rfl, rfl, rfl⟩)

end

/-! ### The stamp in a record -/

theorem exists_entries_record (d : Decision) (r : Ruleset) : ∃ es : List (String × Value),
    (es.map Prod.fst).Nodup ∧ "when" ∉ es.map Prod.fst ∧
      ∀ s, record d r (some s) = .map (es ++ [("when", .text s)]) := by
  refine ⟨_, ?_, ?_, fun s => rfl⟩
  · simp
  · simp

/-- Nothing in the text of a record depends on the stamp but the text of the stamp itself. -/
theorem exists_canonical_record (d : Decision) (r : Ruleset) :
    ∃ before after, ∀ s, (record d r (some s)).canonical = before ++ quoted s ++ after := by
  obtain ⟨es, hkeys, hnew, hrecord⟩ := exists_entries_record d r
  obtain ⟨before, after, htext⟩ := exists_canonical_map_append hkeys hnew
  refine ⟨before, after, fun s => ?_⟩
  rw [hrecord, htext]
  rfl

/-- A character that is a single unit and is written as it is. -/
structure Unescaped (c : Char) : Prop where
  written : escapeChar c = [c]
  single : c.toNat < 0x10000

/-- A stamp in the place of one that differs in one character changes the hash of the record. -/
theorem hash_record_ne (d : Decision) (r : Ruleset) {s t : String} {before after : List Char} {c e : Char}
    (hs : s.toList = before ++ c :: after) (ht : t.toList = before ++ e :: after) (hce : c ≠ e) (hc : Unescaped c)
    (he : Unescaped e) : hash (record d r (some s)).canonical ≠ hash (record d r (some t)).canonical := by
  obtain ⟨fore, aft, htext⟩ := exists_canonical_record d r
  -- What stands before and after the character is the same for both stamps.
  have hplace : ∀ {u : String} {x : Char}, u.toList = before ++ x :: after → escapeChar x = [x] →
      (record d r (some u)).canonical =
        (fore ++ '"' :: before.flatMap escapeChar) ++ x :: (after.flatMap escapeChar ++ '"' :: aft) := by
    intro u x hu hx
    rw [htext, quoted, hu, List.flatMap_append, List.flatMap_cons, hx]
    simp
  rw [hplace hs hc.written, hplace ht he.written]
  exact hash_ne_of_one_char hc.single he.single hce _ _

end Citation
end Appraisal
