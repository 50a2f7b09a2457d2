import Appraisal.Proofs.Registry
import Appraisal.Session

/-! The history of a session: the loadings that succeeded, in order. It decides the registry (`Follows`): the ruleset is
    that of the last loading, and the source that of the last loading from a source. Every step adds to the history
    what it loads (`Follows.step`); so after any steps the registry, and with it every appraisal, depends on the
    history alone (`run_follows_history`). -/

namespace Appraisal.Session
variable {s : Session} {x : Step}

/-- The loading that a step asks for. -/
def loading? (s : Session) : Step → Option Loading
  | .loadDocument v => some (.document v)
  | .load source => some (.source s.readers s.files source)
  | .write .. | .delete _ | .ruleset | .rule _ | .appraise .. => none

/-- What a step loads. -/
def loads? (s : Session) (x : Step) : Option Loaded := (s.loading? x).bind s.registry.loaded?

/-- What some steps load, one after another. -/
def history (s : Session) : List Step → List Loaded
  | [] => []
  | x :: rest => (s.loads? x).toList ++ history (s.step x).1 rest

/-- The session that begins with a source from which nothing has been loaded yet. -/
def opened (readers : Readers) (files : FileStore) (source : Option FileStore.Path) (head : String) : Session :=
  ⟨readers, files, .ofSource source, head⟩

/-! ### Steps -/

theorem step_of_loading {l : Loading} (h : s.loading? x = some l) : s.step x = s.loaded (s.registry.perform l) := by
  cases x with
  | loadDocument v | load source =>
    cases h
    rfl
  | _ => cases h

theorem loaded_registry (s : Session) (outcome : Registry × Except LoadFault Ruleset) :
    (s.loaded outcome).1 = { s with registry := outcome.1 } := by
  rcases outcome with ⟨g, r | f⟩ <;> rfl

theorem changed_eq (s : Session) (p : FileStore.Path) (outcome : Except FileStore.Fault FileStore) :
    ∃ files, (s.changed p outcome).1 = { s with files } := by
  cases outcome with
  | ok files => exact ⟨files, rfl⟩
  | error f => exact ⟨s.files, rfl⟩

/-- A step that asks for no loading changes nothing but files. -/
theorem step_of_no_loading (h : s.loading? x = none) : ∃ files, (s.step x).1 = { s with files } := by
  cases x with
  | loadDocument v | load source => cases h
  | write p bytes => exact changed_eq s p _
  | delete p => exact changed_eq s p _
  | ruleset | rule | appraise => exact ⟨s.files, rfl⟩

theorem step_ok_iff {l : Loading} (h : s.loading? x = some l) :
    (∃ a, (s.step x).2 = .ok a) ↔ ∃ d, s.registry.loaded? l = some d := by
  rw [step_of_loading h]
  rcases s.registry.perform_cases l with ⟨d, entries, hloaded, -, hperform⟩ | ⟨lacking, f, hloaded, hperform⟩ <;>
    simp [hperform, hloaded, loaded]

/-! ### Histories -/

/-- The session is where the history leads from this source. -/
structure Follows (source : Option FileStore.Path) (head : String) (history : List Loaded) (s : Session) : Prop where
  ruleset : s.registry.ruleset = history.getLast?.map (·.ruleset)
  source : s.registry.source = (history.filterMap (·.source)).getLast?.or source
  distinctKeys : ∀ d ∈ history, d.source.isSome → d.document.DistinctKeys
  head : s.head = head

namespace Follows
variable {source : Option FileStore.Path} {head : String} {past : List Loaded}

theorem opened (readers : Readers) (files : FileStore) (source : Option FileStore.Path) (head : String) :
    Follows source head [] (opened readers files source head) := ⟨rfl, rfl, nofun, rfl⟩

theorem step (h : Follows source head past s) (x : Step) :
    Follows source head (past ++ (s.loads? x).toList) (s.step x).1 := by
  unfold loads?
  cases hloading : s.loading? x with
  | none =>
    obtain ⟨files, hstep⟩ := step_of_no_loading hloading
    rw [hstep]
    simpa using ⟨h.ruleset, h.source, h.distinctKeys, h.head⟩
  | some l =>
    rw [step_of_loading hloading, loaded_registry]
    refine ⟨?_, ?_, fun d hd hsource => ?_, h.head⟩
    · rw [Registry.perform_ruleset, h.ruleset]
      cases hloaded : s.registry.loaded? l <;> simp [hloaded]
    · rw [Registry.perform_source, h.source]
      cases hloaded : s.registry.loaded? l with
      | none => simp [hloaded]
      | some d => cases hd : d.source <;> simp [hloaded, hd]
    · rcases List.mem_append.1 hd with hd | hd
      · exact h.distinctKeys d hd hsource
      · obtain ⟨p, hp⟩ := Option.isSome_iff_exists.1 hsource
        have hdocument := Registry.loaded?_eq_some_iff.1 (Option.mem_toList.1 hd)
        rw [hp] at hdocument
        exact Registry.distinctKeys_of_document hdocument

theorem run (h : Follows source head past s) (steps : List Step) :
    Follows source head (past ++ s.history steps) (s.run steps) := by
  induction steps generalizing past s with
  | nil => simpa [history, Session.run] using h
  | cons x rest ih =>
    have hrest := ih (h.step x)
    rwa [List.append_assoc] at hrest

end Follows

/-- After any steps the registry holds the ruleset of the last loading that succeeded, with the source of the last one
    that was read from a source. Steps that do not load leave the registry alone, a step that loads succeeds exactly
    if it goes into the history, and a text is appraised under the ruleset of the last loading. -/
theorem run_follows_history (readers : Readers) (files : FileStore) (source : Option FileStore.Path) (head : String)
    (steps : List Step) :
    let s := (opened readers files source head).run steps
    let past := (opened readers files source head).history steps
    Follows source head past s ∧
      (∀ x, s.loading? x = none → (s.step x).1.registry = s.registry) ∧
      (∀ x l, s.loading? x = some l → ((∃ a, (s.step x).2 = .ok a) ↔ ∃ d, s.registry.loaded? l = some d)) ∧
      (past = [] → ∀ text now, s.step (.appraise text now) = (s, .error .noRuleset)) ∧
      ∀ d, past.getLast? = some d → ∀ text now, s.step (.appraise text now) =
        (s, match d.ruleset.appraise text now head with
          | .ok a => .ok (.appraised a)
          | .error f => .error (.appraisal f)) := by
  intro s past
  have hfollows : Follows source head past s := (Follows.opened readers files source head).run steps
  refine ⟨hfollows, fun x hx => ?_, fun x l => step_ok_iff, fun hpast text now => ?_, fun d hd text now => ?_⟩
  · obtain ⟨files', hstep⟩ := step_of_no_loading hx
    rw [hstep]
  · have hruleset := hfollows.ruleset
    rw [hpast] at hruleset
    simp only [step, current, hruleset]
    rfl
  · have hruleset := hfollows.ruleset
    rw [hd] at hruleset
    simp only [step, current, hruleset, hfollows.head]
    rfl

/-- A file with one rule is written and loaded, and deleted after that. -/
def deleted : List Step :=
  [.write (.ofText "r.yaml") "\x7b\"rules\":[\x7b\"id\":\"R1\"\x7d]\x7d".toUTF8.toList,
    .load (some (.ofText "r.yaml")), .delete (.ofText "r.yaml"), .load none]

/-- The loading after the file was deleted fails, so the rule and the source stay. -/
theorem run_follows_history_deleted :
    let s := (opened Registry.sampleReaders (.empty ["home"]) none Citation.standardHead).run deleted
    s.registry.ruleset.map (·.rules.map (·.id)) = some ["R1"] ∧ s.registry.source = some (.ofText "r.yaml") ∧
      ¬ ∃ a, (s.step (.load none)).2 = .ok a := by
  intro s
  obtain ⟨hfollows, -, hloads, -⟩ :=
    run_follows_history Registry.sampleReaders (.empty ["home"]) none Citation.standardHead deleted
  have hpast : ((opened Registry.sampleReaders (.empty ["home"]) none Citation.standardHead).history deleted).map
      (fun d => (d.source, d.ruleset.rules.map (·.id))) = [(some (.ofText "r.yaml"), ["R1"])] := by decide +kernel
  obtain ⟨d, hpast, hd⟩ := List.map_eq_singleton_iff.1 hpast
  obtain ⟨hsource, hids⟩ := Prod.mk.inj hd
  have hgone : (s.registry.loaded? (.source s.readers s.files none)).isNone = true := by decide +kernel
  refine ⟨?_, ?_, ?_⟩
  · rw [hfollows.ruleset, hpast]
    exact congrArg some hids
  · rw [hfollows.source, hpast]
    simp [hsource]
  · rw [hloads (.load none) _ rfl, Option.isNone_iff_eq_none.1 hgone]
    simp

end Appraisal.Session
