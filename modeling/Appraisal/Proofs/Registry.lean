import Appraisal.Proofs.Ruleset.Parts
import Appraisal.Registry

/-! Loading into a registry. A loading gets hold of a document, which has no key twice if it is read from a file
    (`distinctKeys_of_document`), and the document is checked (`performs`). If it is accepted, the registry takes on its
    ruleset, its lacking sections and the source it was read from (`perform_cases`). A loading that fails leaves the
    ruleset and the source alone; the lacking sections it leaves alone only if it fails before the parts of a document
    are checked (`failed_loading_keeps`). All this holds whichever reader there is for YAML. -/

namespace Appraisal

/-- The ways to load: a document that is at hand, or the one at a source, where `none` is the registry's own. -/
inductive Loading where
  | document (v : Value)
  | source (readers : Readers) (files : FileStore) (source : Option FileStore.Path)

/-- A document was found and is a mapping, but its parts are not those of a ruleset. -/
def LoadFault.IsRefusal : LoadFault → Prop
  | rejected _ | aborted _ => True
  | _ => False

/-- A document that was loaded, its source if it was read from one, and the ruleset that it was accepted as. -/
structure Loaded where
  document : Value
  source : Option FileStore.Path
  ruleset : Ruleset
  accepted : Ruleset.read document = .accepted ruleset

namespace Registry
variable {g g' : Registry} {l : Loading} {f : LoadFault}

def perform (g : Registry) : Loading → Registry × Except LoadFault Ruleset
  | .document v => g.loadDocument v
  | .source readers files source => g.load readers files source

/-- The document that a loading gets hold of, and the source that it reads. -/
def document (g : Registry) : Loading → Except LoadFault (Value × Option FileStore.Path)
  | .document v => .ok (v, none)
  | .source readers files source =>
    match source.or g.source with
    | none => .error .noPath
    | some source => (documentAt readers files source).map fun v => (v, some source)

/-- What a loading loads, if its document is found and accepted. -/
def loaded? (g : Registry) (l : Loading) : Option Loaded :=
  match g.document l with
  | .error _ => none
  | .ok (v, source) =>
    match h : Ruleset.read v with
    | .accepted r => some ⟨v, source, r, h⟩
    | .rejected _ | .aborted _ => none

/-! ### Documents in files -/

theorem distinctKeys_of_documentAt {readers : Readers} {files : FileStore} {p : FileStore.Path} {v : Value}
    (h : documentAt readers files p = .ok v) : v.DistinctKeys := by
  have hread : ∃ cs, readers.read p cs = .ok v := by
    unfold documentAt documentOf at h
    repeat' split at h
    all_goals cases h
    exact ⟨_, ‹_›⟩
  obtain ⟨cs, hread⟩ := hread
  unfold Readers.read at hread
  split at hread
  · exact Value.distinctKeys_of_read hread
  · exact readers.distinctKeys hread

theorem distinctKeys_of_document {v : Value} {p : FileStore.Path} (h : g.document l = .ok (v, some p)) :
    v.DistinctKeys := by
  cases l with
  | document w => cases h
  | source readers files chosen =>
    rw [document] at h
    split at h
    · cases h
    · obtain ⟨w, hw, heq⟩ := Outcome.map_eq_ok_iff.1 h
      cases heq
      exact distinctKeys_of_documentAt hw

theorem loadDocument_eq (g g' : Registry) (v : Value) : (g.loadDocument v).2 = (g'.loadDocument v).2 := by
  cases v with
  | map entries =>
    unfold loadDocument
    dsimp only
    split <;> rfl
  | _ => rfl

/-- The ruleset that some bytes are accepted as, in the file at a path. -/
def rulesetOf (readers : Readers) (p : FileStore.Path) (bytes : List UInt8) : Except LoadFault Ruleset :=
  (documentOf readers p bytes).bind fun v => ((ofSource none).loadDocument v).2

theorem load_of_entry {readers : Readers} {files : FileStore} {p : FileStore.Path} {bytes : List UInt8}
    (h : files.entry p = .ok (.file bytes)) (source : Option FileStore.Path) (hsource : source.or g.source = some p) :
    (g.load readers files source).2 = rulesetOf readers p bytes := by
  have hdocument : documentAt readers files p = documentOf readers p bytes := by rw [documentAt, h]
  rw [load, hsource, rulesetOf]
  dsimp only
  rw [hdocument]
  cases documentOf readers p bytes with
  | error f => rfl
  | ok v =>
    dsimp only [Except.bind]
    rw [loadDocument_eq _ g]
    rcases g.loadDocument v with ⟨g', f | r⟩ <;> rfl

/-! ### The ends of a loading -/

/-- What a loading can end in, and what it leaves behind in each case. -/
inductive Performs (g : Registry) (l : Loading) : Registry × Except LoadFault Ruleset → Prop
  | accepted {entries : List (String × Value)} {source : Option FileStore.Path} {r : Ruleset}
      (hdoc : g.document l = .ok (.map entries, source)) (hread : Ruleset.read (.map entries) = .accepted r) :
      Performs g l (⟨source.or g.source, some r, Section.lacking entries⟩, .ok r)
  | rejected {entries : List (String × Value)} {source : Option FileStore.Path} {issues : List Issue}
      (hdoc : g.document l = .ok (.map entries, source)) (hread : Ruleset.read (.map entries) = .rejected issues) :
      Performs g l ({ g with lacking := Section.lacking entries }, .error (.rejected issues))
  | aborted {entries : List (String × Value)} {source : Option FileStore.Path} {b : Breakdown}
      (hdoc : g.document l = .ok (.map entries, source)) (hread : Ruleset.read (.map entries) = .aborted b) :
      Performs g l ({ g with lacking := Section.lacking entries }, .error (.aborted b))
  | notMapping {v : Value} {source : Option FileStore.Path} (hdoc : g.document l = .ok (v, source))
      (hv : ∀ entries, v ≠ .map entries) : Performs g l (g, .error (.notMapping v.kindName))
  | unread {f : LoadFault} (hdoc : g.document l = .error f) (hf : ¬ f.IsRefusal) : Performs g l (g, .error f)

theorem performs_document (g : Registry) (v : Value) : Performs g (.document v) (g.loadDocument v) := by
  have hdoc : g.document (.document v) = .ok (v, none) := rfl
  cases v with
  | map entries =>
    unfold loadDocument
    cases hread : Ruleset.read (.map entries) with
    | accepted r => exact .accepted hdoc hread
    | rejected issues => exact .rejected hdoc hread
    | aborted b => exact .aborted hdoc hread
  | _ => exact .notMapping hdoc nofun

theorem not_isRefusal_of_documentAt {readers : Readers} {files : FileStore} {p : FileStore.Path}
    (h : documentAt readers files p = .error f) : ¬ f.IsRefusal := by
  unfold documentAt documentOf at h
  repeat' split at h
  all_goals cases h
  all_goals exact id

theorem performs (g : Registry) (l : Loading) : Performs g l (g.perform l) := by
  cases l with
  | document v => exact performs_document g v
  | source readers files chosen =>
    change Performs g (.source readers files chosen) (g.load readers files chosen)
    unfold load
    cases hsource : chosen.or g.source with
    | none =>
      have hdocument : g.document (.source readers files chosen) = .error .noPath := by simp only [document, hsource]
      exact .unread hdocument id
    | some source =>
      have hdocument : g.document (.source readers files chosen) =
          (documentAt readers files source).map fun v => (v, some source) := by simp only [document, hsource]
      cases hdoc : documentAt readers files source with
      | error f =>
        rw [hdoc] at hdocument
        simp only [hdoc]
        exact .unread hdocument (not_isRefusal_of_documentAt hdoc)
      | ok v =>
        rw [hdoc] at hdocument
        -- The document is checked like one that is at hand; the source is noted down if it is accepted.
        have hperforms := performs_document g v
        rcases hloaded : g.loadDocument v with ⟨g', outcome⟩
        rw [hloaded] at hperforms
        simp only [hdoc, hloaded]
        cases hperforms with
        | accepted hv hread =>
          cases hv
          exact .accepted hdocument hread
        | rejected hv hread =>
          cases hv
          exact .rejected hdocument hread
        | aborted hv hread =>
          cases hv
          exact .aborted hdocument hread
        | notMapping hv hnot =>
          cases hv
          exact .notMapping hdocument hnot
        | unread hv => cases hv

/-! ### Loadings that succeed -/

theorem loaded?_eq_some_iff {x : Loaded} : g.loaded? l = some x ↔ g.document l = .ok (x.document, x.source) := by
  obtain ⟨v, source, r, hread⟩ := x
  unfold loaded?
  cases hdoc : g.document l with
  | error f => simp
  | ok found =>
    obtain ⟨w, chosen⟩ := found
    simp only [Except.ok.injEq, Prod.mk.injEq]
    constructor
    · split
      · intro h
        cases h
        exact ⟨rfl, rfl⟩
      · nofun
      · nofun
    · rintro ⟨rfl, rfl⟩
      split
      · rename_i r' hread'
        rw [hread] at hread'
        cases hread'
        rfl
      all_goals
        rename_i hread'
        rw [hread] at hread'
        cases hread'

theorem loaded?_eq_none_iff : g.loaded? l = none ↔ ∀ x : Loaded, g.document l ≠ .ok (x.document, x.source) := by
  rw [Option.eq_none_iff_forall_ne_some]
  exact forall_congr' fun x => not_congr loaded?_eq_some_iff

/-- A loading succeeds exactly if it loads something. -/
theorem perform_cases (g : Registry) (l : Loading) :
    (∃ x entries, g.loaded? l = some x ∧ x.document = .map entries ∧
      g.perform l = (⟨x.source.or g.source, some x.ruleset, Section.lacking entries⟩, .ok x.ruleset)) ∨
    ∃ lacking f, g.loaded? l = none ∧ g.perform l = ({ g with lacking }, .error f) := by
  have hnothing : ∀ {v : Value} {source : Option FileStore.Path}, g.document l = .ok (v, source) →
      (∀ r, Ruleset.read v ≠ .accepted r) → g.loaded? l = none := by
    intro v source hdoc hread
    refine loaded?_eq_none_iff.2 fun x hfound => hread x.ruleset ?_
    cases hdoc.symm.trans hfound
    exact x.accepted
  have hperforms := performs g l
  generalize g.perform l = outcome at hperforms ⊢
  cases hperforms with
  | accepted hdoc hread => exact .inl ⟨⟨_, _, _, hread⟩, _, loaded?_eq_some_iff.2 hdoc, rfl, rfl⟩
  | rejected hdoc hread | aborted hdoc hread => exact .inr ⟨_, _, hnothing hdoc (by simp [hread]), rfl⟩
  | @notMapping v source hdoc hv =>
    refine .inr ⟨_, _, hnothing hdoc fun r hread => ?_, rfl⟩
    obtain ⟨⟨entries, hmap, -⟩, -⟩ := Ruleset.read_eq_accepted.1 hread
    exact hv entries hmap
  | unread hdoc =>
    have hnone : g.loaded? l = none := loaded?_eq_none_iff.2 fun x hfound => by cases hdoc.symm.trans hfound
    exact .inr ⟨_, _, hnone, rfl⟩

theorem perform_ruleset (g : Registry) (l : Loading) :
    (g.perform l).1.ruleset = ((g.loaded? l).map (·.ruleset)).or g.ruleset := by
  rcases g.perform_cases l with ⟨x, entries, hloaded, -, hperform⟩ | ⟨lacking, f, hloaded, hperform⟩ <;>
    rw [hperform, hloaded] <;> rfl

theorem perform_source (g : Registry) (l : Loading) :
    (g.perform l).1.source = ((g.loaded? l).bind (·.source)).or g.source := by
  rcases g.perform_cases l with ⟨x, entries, hloaded, -, hperform⟩ | ⟨lacking, f, hloaded, hperform⟩ <;>
    rw [hperform, hloaded] <;> rfl

/-! ### Loadings that fail -/

/-- A loading that fails leaves the ruleset and the source as they are, and the whole registry if no document was refused
    for its parts. A document that was refused leaves its lacking sections in place of the old ones. -/
theorem failed_loading_keeps (h : g.perform l = (g', .error f)) :
    g'.ruleset = g.ruleset ∧ g'.source = g.source ∧ (¬ f.IsRefusal → g' = g) ∧
      (f.IsRefusal → ∃ entries source, g.document l = .ok (.map entries, source) ∧
        g' = { g with lacking := Section.lacking entries }) := by
  have hperforms := performs g l
  rw [h] at hperforms
  cases hperforms with
  | rejected hdoc hread => exact ⟨rfl, rfl, fun hf => absurd trivial hf, fun _ => ⟨_, _, hdoc, rfl⟩⟩
  | aborted hdoc hread => exact ⟨rfl, rfl, fun hf => absurd trivial hf, fun _ => ⟨_, _, hdoc, rfl⟩⟩
  | notMapping hdoc hv => exact ⟨rfl, rfl, fun _ => rfl, False.elim⟩
  | unread hdoc hf => exact ⟨rfl, rfl, fun _ => rfl, fun h => absurd h hf⟩

/-- A registry with a ruleset from a document that lacks nothing. -/
def complete : Registry :=
  ((ofSource none).perform (.document (.map [("aliases", .map []), ("ordinal_scales", .map []),
    ("rules", .list [.map [("id", .text "R1")]])]))).1

/-- Readers of which the one for YAML knows the texts in JSON, which are YAML too. -/
def sampleReaders : Readers := ⟨8, Value.read 8, Value.distinctKeys_of_read⟩

/-- A YAML file with a document that has no scales and gives two rules the same id. -/
def doubledFile : Loading :=
  let text := "\x7b\"aliases\":\x7b\x7d,\"rules\":[\x7b\"id\":\"R2\"\x7d,\x7b\"id\":\"R2\"\x7d]\x7d"
  .source sampleReaders ⟨[(["r.yaml"], text.toUTF8.toList)], [], []⟩ (some (.ofText "r.yaml"))

/-- The old ruleset stays, and beside it what the refused document lacks. -/
theorem failed_loading_keeps_doubled : ∃ g' f, complete.perform doubledFile = (g', .error f) ∧ f.IsRefusal ∧
    g'.ruleset = complete.ruleset ∧ g'.source = none ∧ g'.lacking = [.scales] := by
  have hfailed : (complete.perform doubledFile).2.toOption.isNone = true := by decide +kernel
  have hlacking : (complete.perform doubledFile).1.lacking = [.scales] := by decide +kernel
  rcases hperform : complete.perform doubledFile with ⟨g', f | r⟩
  · rw [hperform] at hlacking
    obtain ⟨hruleset, hsource, hkept, -⟩ := failed_loading_keeps hperform
    have hrefused : f.IsRefusal := by
      by_contra hnot
      rw [hkept hnot] at hlacking
      cases hlacking
    exact ⟨g', f, rfl, hrefused, hruleset, hsource, hlacking⟩
  · rw [hperform] at hfailed
    cases hfailed

/-- The document of this file, at hand. -/
def doubled : Loading :=
  .document (.map [("aliases", .map []), ("rules", .list [.map [("id", .text "R2")], .map [("id", .text "R2")]])])

/-- A failed loading can change what the registry says is lacking from a ruleset that it still holds. -/
theorem lacking_changed_by_failure : complete.lacking = [] ∧
    ∃ g' f, complete.perform doubled = (g', .error f) ∧ g'.ruleset = complete.ruleset ∧ g'.lacking = [.scales] :=
  ⟨rfl, _, _, rfl, rfl, rfl⟩

end Registry
end Appraisal
