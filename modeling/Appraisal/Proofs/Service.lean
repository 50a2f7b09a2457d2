import Appraisal.Number.Numeral
import Appraisal.Proofs.Registry
import Appraisal.Service.Basic

/-! Runs of the service: files are written and deleted, and requests are answered. The rules in service are those of the
    last reading, at the start or at a request to reload, as the files were then (`Serves.run`); only such a request
    reads them again. A reading that fails leaves no rules behind. So a request finds no ruleset exactly if it asks for
    the rules and the last reading failed (`rules_of_last_reading`). -/

namespace Appraisal.Service

/-- What happens to a service: a file is written or deleted, or a request comes in at a moment. -/
inductive Event where
  | write (p : FileStore.Path) (bytes : List UInt8)
  | delete (p : FileStore.Path)
  | request (now : Citation.Moment) (q : Request)

/-- The service after an event. A file that cannot be written or deleted changes nothing. -/
def after (s : Service) : Event → Service
  | .write p bytes => (s.write p bytes).toOption.getD s
  | .delete p => (s.delete p).toOption.getD s
  | .request now q => (s.handle now q).1

def run (s : Service) (events : List Event) : Service := events.foldl after s

/-! ### Where a request leads -/

/-- The path that a request is answered for, if it can be sent. -/
def Request.path? (q : Request) : Option (List Char) :=
  match Target.ofText q.target with
  | .error _ => none
  | .ok target => if q.body.all isFinite && target.fault?.isNone then some target.plainPath else none

/-- The route that answers a request, if its path has one with its method. -/
def Request.route? (q : Request) : Option Route := (q.path?.bind Route.ofPath?).filter (·.admits q.method)

/-- The request asks for the rules in service. A check does so if its body submits a text. -/
def Request.AsksRules (q : Request) : Prop :=
  match q.route? with
  | some .root | some .rules | some (.rule _) => True
  | some .check => ∃ text, submittedText q.body = .ok text
  | some (.page _) | some .health | some .dialect | some .reload | none => False

def Event.IsReload : Event → Prop
  | .write .. | .delete _ => False
  | .request _ q => q.route? = some .reload

instance : DecidablePred Event.IsReload
  | .write .. | .delete _ => inferInstanceAs (Decidable False)
  | .request _ q => inferInstanceAs (Decidable (q.route? = some .reload))

/-- The files as they are at each request to reload. -/
def reloads (s : Service) : List Event → List FileStore
  | [] => []
  | e :: rest => (if e.IsReload then [s.files] else []) ++ reloads (s.after e) rest

section
variable {s : Service} {now : Citation.Moment} {q : Request}

theorem handle_of_path {path : List Char} (h : q.path? = some path) :
    s.handle now q = ((s.handlePath now q path).1, (s.handlePath now q path).2.map (sent q.method)) := by
  unfold Request.path? at h
  split at h
  · cases h
  · rename_i target htarget
    split at h
    · rename_i hsendable
      cases h
      obtain ⟨hfinite, hfault⟩ := Bool.and_eq_true_iff.1 hsendable
      simp only [handle, htarget, hfinite, Option.isNone_iff_eq_none.1 hfault]
      rfl
    · cases h

/-- A request that cannot be sent fails in the same way in every service. -/
theorem handle_of_no_path (h : q.path? = none) (now : Citation.Moment) :
    ∃ f, f ≠ .noRuleset ∧ ∀ s : Service, s.handle now q = (s, .error f) := by
  unfold Request.path? at h
  cases htarget : Target.ofText q.target with
  | error f => exact ⟨.target f, nofun, fun s => by rw [handle, htarget]⟩
  | ok target =>
    simp only [htarget] at h
    cases hfinite : q.body.all isFinite with
    | false => exact ⟨.body, nofun, fun s => by simp only [handle, htarget, hfinite]; rfl⟩
    | true =>
      cases hfault : target.fault? with
      | some f => exact ⟨.target f, nofun, fun s => by simp only [handle, htarget, hfinite, hfault]; rfl⟩
      | none =>
        rw [hfinite, hfault] at h
        cases h

theorem handle_of_route {route : Route} (h : q.route? = some route) :
    s.handle now q = ((s.answer now q.body route).1, (s.answer now q.body route).2.map (sent q.method)) := by
  obtain ⟨hroute, hadmits⟩ := Option.filter_eq_some_iff.1 h
  obtain ⟨path, hpath, hroute⟩ := Option.bind_eq_some_iff.1 hroute
  rw [handle_of_path hpath]
  simp only [handlePath, hroute, hadmits, if_true]

/-- A request that no route answers changes nothing, and never for want of a ruleset. -/
theorem handle_of_no_route (h : q.route? = none) :
    (s.handle now q).1 = s ∧ (s.handle now q).2 ≠ .error .noRuleset := by
  cases hpath : q.path? with
  | none =>
    obtain ⟨f, hf, hhandle⟩ := handle_of_no_path hpath now
    rw [hhandle]
    exact ⟨rfl, fun hfault => hf (Except.error.inj hfault)⟩
  | some path =>
    rw [handle_of_path hpath]
    rw [Request.route?, hpath, Option.bind_some] at h
    unfold handlePath
    cases hroute : Route.ofPath? path with
    | none =>
      dsimp only
      split <;> exact ⟨rfl, nofun⟩
    | some route =>
      rw [hroute] at h
      have hadmits : ¬ route.admits q.method = true := by simpa [Option.filter] using h
      dsimp only
      rw [if_neg hadmits]
      exact ⟨rfl, nofun⟩

/-! ### What an answer reads and changes -/

theorem current_eq_error_iff {f : Fault} : s.current = .error f ↔ f = .noRuleset ∧ s.registry.ruleset = none := by
  unfold current
  cases s.registry.ruleset <;> simp [eq_comm]

theorem answer_of_not_reload {body : Option Value} {route : Route} (h : route ≠ .reload) :
    (s.answer now body route).1 = s := by
  cases route with
  | reload => exact absurd rfl h
  | _ => rfl

theorem check_eq_noRuleset_iff {text : String} : s.check now text = .error .noRuleset ↔ s.registry.ruleset = none := by
  unfold check current
  cases hruleset : s.registry.ruleset with
  | none => simp [Except.bind]
  | some r =>
    simp only [Except.bind]
    split <;> simp

theorem reload_ne_noRuleset : s.reload.2 ≠ .error .noRuleset := by
  unfold reload
  dsimp only
  split <;> nofun

theorem withText_eq_noRuleset_iff {body : Option Value} {answer : String → Except Fault Reply} :
    withText body answer = .error .noRuleset ↔
      ∃ text, submittedText body = .ok text ∧ answer text = .error .noRuleset := by
  unfold withText
  cases submittedText body <;> simp

/-- A request finds no ruleset exactly if it asks for the rules and there are none. -/
theorem handle_eq_noRuleset_iff :
    (s.handle now q).2 = .error .noRuleset ↔ q.AsksRules ∧ s.registry.ruleset = none := by
  unfold Request.AsksRules
  cases hroute : q.route? with
  | none => simpa using (handle_of_no_route hroute).2
  | some route =>
    rw [handle_of_route hroute]
    dsimp only
    rw [Outcome.map_eq_error_iff]
    cases route with
    | root | rules | rule => simp [answer, Outcome.map_eq_error_iff, current_eq_error_iff]
    | check => simp [answer, withText_eq_noRuleset_iff, check_eq_noRuleset_iff]
    | page | health => simp [answer]
    | dialect => simp [answer, withText_eq_noRuleset_iff]
    | reload => simpa [answer] using reload_ne_noRuleset

theorem handle_of_reload (h : q.route? = some .reload) :
    (s.handle now q).1 = { s with registry := (freshRegistry s.host.readers s.settings s.files).1 } := by
  rw [handle_of_route h]
  rfl

theorem handle_of_not_reload (h : q.route? ≠ some .reload) : (s.handle now q).1 = s := by
  cases hroute : q.route? with
  | none => exact (handle_of_no_route hroute).1
  | some route =>
    rw [handle_of_route hroute]
    exact answer_of_not_reload fun hreload => h (by rw [hroute, hreload])

/-! ### Readings of the rules -/

theorem freshRegistry_ruleset (readers : Readers) (settings : Settings) (files : FileStore) :
    (freshRegistry readers settings files).1.ruleset = (freshRegistry readers settings files).2.toOption := by
  change (Registry.perform _ (.source readers files none)).1.ruleset =
    (Registry.perform _ (.source readers files none)).2.toOption
  rcases (Registry.ofSource (Registry.sourceOf (some settings.rulesetPath))).perform_cases (.source readers files none)
    with ⟨d, entries, -, -, hperform⟩ | ⟨lacking, f, -, hperform⟩ <;> rw [hperform] <;> rfl

/-- What the service makes of its ruleset file when the files are like this. -/
def reading (s : Service) (files : FileStore) : Except LoadFault Ruleset :=
  (freshRegistry s.host.readers s.settings files).2

theorem changed_files (s : Service) (outcome : Except FileStore.Fault FileStore) :
    ∃ files, (outcome.map fun files => { s with files }).toOption.getD s = { s with files } := by
  cases outcome with
  | ok files => exact ⟨files, rfl⟩
  | error f => exact ⟨s.files, rfl⟩

/-- The service is set up as the first one was, and its rules were last read when the files were `read`. -/
structure Serves (first : Service) (read : FileStore) (s : Service) : Prop where
  host : s.host = first.host
  settings : s.settings = first.settings
  registry : s.registry = (freshRegistry first.host.readers first.settings read).1

namespace Serves
variable {first : Service} {read : FileStore}

theorem ruleset (h : Serves first read s) : s.registry.ruleset = (first.reading read).toOption := by
  rw [h.registry, freshRegistry_ruleset]
  rfl

theorem after (h : Serves first read s) (e : Event) :
    Serves first (if e.IsReload then s.files else read) (s.after e) := by
  cases e with
  | write p bytes =>
    obtain ⟨files, hfiles⟩ := s.changed_files (s.files.write p bytes)
    rw [if_neg (id : ¬ (Event.write p bytes).IsReload), Service.after, Service.write, hfiles]
    exact ⟨h.host, h.settings, h.registry⟩
  | delete p =>
    obtain ⟨files, hfiles⟩ := s.changed_files (s.files.delete p)
    rw [if_neg (id : ¬ (Event.delete p).IsReload), Service.after, Service.delete, hfiles]
    exact ⟨h.host, h.settings, h.registry⟩
  | request now q =>
    change Serves first _ (s.handle now q).1
    by_cases hreload : (Event.request now q).IsReload
    · rw [if_pos hreload, handle_of_reload hreload]
      exact ⟨h.host, h.settings, by rw [h.host, h.settings]⟩
    · rw [if_neg hreload, handle_of_not_reload hreload]
      exact h

theorem run (h : Serves first read s) (events : List Event) :
    Serves first ((s.reloads events).getLast?.getD read) (s.run events) := by
  induction events generalizing s read with
  | nil => exact h
  | cons e rest ih =>
    have hrest : Serves first _ (s.run (e :: rest)) := ih (h.after e)
    rw [reloads, List.getLast?_append, Option.getD_or]
    by_cases hreload : e.IsReload <;> simpa [hreload] using hrest

end Serves

theorem start_eq_ok_iff {host : Host} {environment : OrderedMap String} {files : FileStore} :
    start host environment files = .ok s ↔ ∃ settings registry r,
      Settings.read host.bundled environment files = .ok settings ∧ settings.appName.isEmpty = false ∧
        freshRegistry host.readers settings files = (registry, .ok r) ∧ s = ⟨host, settings, files, registry⟩ := by
  constructor
  · intro h
    unfold start at h
    split at h
    · cases h
    · rename_i settings hsettings
      split at h
      · cases h
      · rename_i hname
        split at h
        · rename_i registry r hread
          cases h
          exact ⟨settings, registry, r, hsettings, eq_false_of_ne_true hname, hread, rfl⟩
        · cases h
  · rintro ⟨settings, registry, r, hsettings, hname, hread, rfl⟩
    simp only [start, hsettings, hname, hread, Bool.false_eq_true, if_false]

theorem host_of_start {host : Host} {environment : OrderedMap String} {files : FileStore}
    (h : start host environment files = .ok s) : s.host = host ∧ s.files = files := by
  obtain ⟨settings, registry, r, -, -, -, rfl⟩ := start_eq_ok_iff.1 h
  exact ⟨rfl, rfl⟩

theorem serves_of_start {host : Host} {environment : OrderedMap String} {files : FileStore}
    (h : start host environment files = .ok s) : Serves s files s ∧ ∃ r, s.reading files = .ok r := by
  obtain ⟨settings, registry, r, -, -, hread, rfl⟩ := start_eq_ok_iff.1 h
  exact ⟨⟨rfl, rfl, by rw [hread]⟩, r, congrArg Prod.snd hread⟩

/-- What holds at the start and of every reading holds of the last one. -/
theorem exists_of_last {files : FileStore} {readings : List FileStore} (hstart : ∃ r, s.reading files = .ok r)
    (h : ∀ read ∈ readings, ∃ r, s.reading read = .ok r) : ∃ r, s.reading (readings.getLast?.getD files) = .ok r := by
  cases hlast : readings.getLast? with
  | none => exact hstart
  | some read => exact h read (List.mem_of_getLast? hlast)

/-- The rules in service are those of the last reading, as the files were then, and none if it failed. A request finds no
    ruleset exactly if it asks for the rules and the last reading failed; so none does if no reloading fails. -/
theorem rules_of_last_reading {host : Host} {environment : OrderedMap String} {files : FileStore}
    (h : start host environment files = .ok s) (events : List Event) :
    let last := (s.reloads events).getLast?.getD files
    (s.run events).registry.ruleset = (s.reading last).toOption ∧
      (∀ now q, ((s.run events).handle now q).2 = .error .noRuleset ↔ q.AsksRules ∧ ∃ f, s.reading last = .error f) ∧
      ((∀ read ∈ s.reloads events, ∃ r, s.reading read = .ok r) →
        ∀ now q, ((s.run events).handle now q).2 ≠ .error .noRuleset) := by
  intro last
  obtain ⟨hserves, hstart⟩ := serves_of_start h
  have hruleset : (s.run events).registry.ruleset = (s.reading last).toOption := (hserves.run events).ruleset
  have hlost : ∀ now q, ((s.run events).handle now q).2 = .error .noRuleset ↔
      q.AsksRules ∧ ∃ f, s.reading last = .error f := fun now q => by
    rw [handle_eq_noRuleset_iff, hruleset]
    cases s.reading last <;> simp [Except.toOption]
  refine ⟨hruleset, hlost, fun hreloads now q hq => ?_⟩
  obtain ⟨-, f, hf⟩ := (hlost now q).1 hq
  obtain ⟨r, hr⟩ : ∃ r, s.reading last = .ok r := exists_of_last hstart hreloads
  rw [hr] at hf
  cases hf

end

/-! ### A reloading that fails -/

section
open Citation (Moment)

def noon : Moment := ⟨⟨2024, 1, 1⟩, 12, 0, 0, 0, none⟩

def sampleHost : Host where
  readers := Registry.sampleReaders
  bundled := "/lib/rules.json"
  page _ _ := none

/-- Two files in the working directory and the one that comes with the library. Each has an empty mapping, which is
    accepted as a ruleset without rules. -/
def sampleFiles : FileStore where
  files := [["home", "r.json"], ["home", "r.yaml"], ["lib", "rules.json"]].map (·, [0x7B, 0x7D])
  directories := [["lib"]]
  working := ["home"]

def emptied (path : String) : Event := .write (.ofText path) []

def reloading : Event := .request noon ⟨"POST", "/check/reload", none⟩

def listing : Request := ⟨"GET", "/rules", none⟩

theorem exists_start (environment : OrderedMap String) {p : Service → Bool}
    (h : (start sampleHost environment sampleFiles).toOption.any p = true) :
    ∃ s, start sampleHost environment sampleFiles = .ok s ∧ p s = true := by
  cases hs : start sampleHost environment sampleFiles with
  | error f =>
    rw [hs] at h
    cases h
  | ok s =>
    rw [hs] at h
    exact ⟨s, rfl, h⟩

/-- The rules that come with the library stay in service when their file is emptied. -/
theorem rules_of_last_reading_emptied : ∃ s, start sampleHost .empty sampleFiles = .ok s ∧
    ∀ now q, ((s.run [emptied "/lib/rules.json"]).handle now q).2 ≠ .error .noRuleset := by
  obtain ⟨s, hs, -⟩ := exists_start .empty (p := fun _ => true) (by decide +kernel)
  obtain ⟨-, -, hkept⟩ := rules_of_last_reading hs [emptied "/lib/rules.json"]
  exact ⟨s, hs, hkept (by simp [reloads, emptied, Event.IsReload])⟩

/-- Rules are lost when a reloading finds their file empty, though they were in service before. -/
theorem rules_lost_by_failed_reloading :
    ∃ s, start sampleHost (.ofList [("SSE_RULESET_PATH", "r.json")]) sampleFiles = .ok s ∧
      (s.run [emptied "r.json"]).registry.ruleset.isSome = true ∧
      ((s.run [emptied "r.json", reloading]).handle noon listing).2 = .error .noRuleset := by
  obtain ⟨s, hs, hp⟩ := exists_start (.ofList [("SSE_RULESET_PATH", "r.json")])
    (p := fun s => (s.run [emptied "r.json"]).registry.ruleset.isSome &&
      (s.run [emptied "r.json", reloading]).registry.ruleset.isNone) (by decide +kernel)
  obtain ⟨hbefore, hafter⟩ := Bool.and_eq_true_iff.1 hp
  have hroute : listing.route? = some .rules := by decide +kernel
  have hasks : listing.AsksRules := by
    unfold Request.AsksRules
    rw [hroute]
    trivial
  exact ⟨s, hs, hbefore, handle_eq_noRuleset_iff.2 ⟨hasks, Option.isNone_iff_eq_none.1 hafter⟩⟩

end
end Appraisal.Service
