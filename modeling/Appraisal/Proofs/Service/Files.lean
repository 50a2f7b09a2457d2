import Appraisal.Proofs.FileStore
import Appraisal.Proofs.Service

/-! The ruleset file of a service. Whatever happens, the files that the service sees stay a tree (`isTree_run`), so what
    is written to the ruleset file is what the next reloading finds in it (`ruleset_of_rewriting`). At first the file is
    the one that comes with the library, unless another one is set (`start_of_install`). -/

namespace Appraisal.Service

section
variable {s t : Service} {host : Host} {environment : OrderedMap String} {files : FileStore} {bytes : List UInt8}

/-! ### Files -/

theorem isTree_after (h : s.files.IsTree) (e : Event) : (s.after e).files.IsTree := by
  cases e with
  | write p bytes =>
    rw [after, write]
    cases hwrite : s.files.write p bytes with
    | ok files => exact FileStore.isTree_write h hwrite
    | error f => exact h
  | delete p =>
    rw [after, delete]
    cases hdelete : s.files.delete p with
    | ok files => exact FileStore.isTree_delete h hdelete
    | error f => exact h
  | request now q =>
    change (s.handle now q).1.files.IsTree
    by_cases hreload : q.route? = some .reload
    · rw [handle_of_reload hreload]
      exact h
    · rw [handle_of_not_reload hreload]
      exact h

theorem isTree_run (h : s.files.IsTree) (events : List Event) : (s.run events).files.IsTree := by
  induction events generalizing s with
  | nil => exact h
  | cons e rest ih => exact ih (isTree_after h e)

/-! ### The ruleset file -/

/-- The path of the ruleset file. -/
def rulesetFile (s : Service) : FileStore.Path := .ofText s.settings.rulesetPath

/-- A service that could read its rules once has a ruleset file. -/
theorem sourceOf_of_reading {r : Ruleset} (h : s.reading files = .ok r) :
    Registry.sourceOf (some s.settings.rulesetPath) = some s.rulesetFile := by
  cases hsource : Registry.sourceOf (some s.settings.rulesetPath) with
  | some p =>
    obtain ⟨path, hpath, rfl⟩ := Option.map_eq_some_iff.1 hsource
    obtain ⟨hpath, -⟩ := Option.filter_eq_some_iff.1 hpath
    cases hpath
    rfl
  | none =>
    rw [reading, freshRegistry, hsource] at h
    cases h

theorem reading_of_entry (hsource : Registry.sourceOf (some s.settings.rulesetPath) = some s.rulesetFile)
    (h : files.entry s.rulesetFile = .ok (.file bytes)) :
    s.reading files = Registry.rulesetOf s.host.readers s.rulesetFile bytes :=
  Registry.load_of_entry h none hsource

/-- The rules after a reloading are those that were written to the ruleset file before, and there are none if these
    bytes are not accepted. -/
theorem ruleset_of_rewriting (h : start host environment files = .ok s) (hfiles : files.IsTree) (events : List Event)
    (hwrite : (s.run events).write s.rulesetFile bytes = .ok t) {now : Citation.Moment} {q : Request}
    (hreload : q.route? = some .reload) :
    (t.handle now q).1.registry.ruleset = (Registry.rulesetOf host.readers s.rulesetFile bytes).toOption := by
  obtain ⟨rfl, rfl⟩ := host_of_start h
  obtain ⟨hserves, r, hr⟩ := serves_of_start h
  have hserves_run := hserves.run events
  obtain ⟨written, hwritten, rfl⟩ := Outcome.map_eq_ok_iff.1 hwrite
  have hentry : written.entry s.rulesetFile = .ok (.file bytes) :=
    FileStore.entry_write (isTree_run hfiles events) hwritten
  rw [handle_of_reload hreload, hserves_run.host, hserves_run.settings, freshRegistry_ruleset,
    ← reading_of_entry (sourceOf_of_reading hr) hentry]
  rfl

/-! ### The library's own ruleset -/

theorem settings_of_nothing (bundled : String) (h : ∀ bytes, files.entry (.ofText ".env") ≠ .ok (.file bytes)) :
    Settings.read bundled .empty files =
      .ok ⟨"SSE Feasibility Checker", false, bundled, Citation.standardHead, "INFO"⟩ := by
  have hnone : Settings.fromFile .empty files = .ok .empty := by
    unfold Settings.fromFile
    split
    · exact absurd ‹_› (h _)
    · rfl
  rw [Settings.read, hnone]
  rfl

/-- Where nothing is set, a service starts exactly if the ruleset that comes with the library is accepted, and with its
    rules. -/
theorem start_of_install {installed : FileStore} (hfiles : files.IsTree) (hpath : host.bundled ≠ "")
    (hinstall : install host files = .ok installed)
    (hnothing : ∀ bytes, installed.entry (.ofText ".env") ≠ .ok (.file bytes)) (r : Ruleset) :
    (∃ s, start host .empty installed = .ok s ∧ s.registry.ruleset = some r) ↔
      Registry.rulesetOf host.readers (.ofText host.bundled) Ruleset.Bundled.file = .ok r := by
  have hsettings := settings_of_nothing host.bundled hnothing
  generalize hdefault : Settings.mk _ _ host.bundled _ _ = settings at hsettings
  have hsource : Registry.sourceOf (some host.bundled) = some (.ofText host.bundled) := by
    simp [Registry.sourceOf, hpath]
  have hread : (freshRegistry host.readers settings installed).2 =
      Registry.rulesetOf host.readers (.ofText host.bundled) Ruleset.Bundled.file := by
    subst hdefault
    exact Registry.load_of_entry (FileStore.entry_write hfiles hinstall) none hsource
  have hruleset := freshRegistry_ruleset host.readers settings installed
  rw [← hread]
  constructor
  · rintro ⟨s, hs, hr⟩
    obtain ⟨settings', registry, r', hsettings', -, hfresh, rfl⟩ := start_eq_ok_iff.1 hs
    cases hsettings.symm.trans hsettings'
    rw [hfresh] at hruleset ⊢
    cases hr.symm.trans hruleset
    rfl
  · intro hr
    rw [hr] at hruleset
    have hname : settings.appName.isEmpty = false := by
      subst hdefault
      rfl
    exact ⟨_, start_eq_ok_iff.2 ⟨settings, _, r, hsettings, hname, Prod.ext rfl hr, rfl⟩, hruleset⟩

end
end Appraisal.Service
