import Appraisal.Proofs.Service

/-! A service that makes its parts when they are first asked for: the registry, which it fills at once, and the
    appraiser, which keeps the registry that it was made with. A request to reload drops both. As nothing else drops
    one of them, the appraiser never keeps an old registry (`Holds.after`); so after any events each request is
    answered as by a service with one registry (`Deferred.handle_run`). -/

namespace Appraisal.Service

/-- The reply to a text that is appraised under a ruleset. -/
def checkReply (r : Ruleset) (now : Citation.Moment) (head text : String) : Except Fault Reply :=
  match r.appraise text.toList now head with
  | .ok a => .ok (ok a.toValue)
  | .error (.submission (.malformed report)) => .ok (reportReply report)
  | .error f => .error (.appraisal f)

/-- The reply after the rules were read again. -/
def reloadReply (s : Service) (r : Ruleset) : Reply :=
  ok (.map [("status", .text "reloaded"), ("rules_loaded", .int r.rules.length),
    ("issues", .texts (s.registry.lacking.map Section.remark))])

/-- What appraises texts: the registry that it was made with, and what its ids begin with. -/
structure Appraiser where
  registry : Registry
  head : String

def Appraiser.check (a : Appraiser) (now : Citation.Moment) (text : String) : Except Fault Reply :=
  match a.registry.ruleset with
  | some r => checkReply r now a.head text
  | none => .error .noRuleset

/-- A service whose parts may not have been made yet. -/
structure Deferred where
  host : Host
  settings : Settings
  files : FileStore
  registry : Option Registry
  appraiser : Option Appraiser

namespace Deferred

/-! ### Parts -/

/-- The registry, which stays even if it cannot be filled. -/
def needRegistry (d : Deferred) : Deferred × Except Fault Registry :=
  match d.registry with
  | some g => (d, .ok g)
  | none =>
    let (g, result) := freshRegistry d.host.readers d.settings d.files
    ({ d with registry := some g }, match result with
      | .ok _ => .ok g
      | .error f => .error (.load f))

/-- The appraiser, which takes the registry as it is. -/
def needAppraiser (d : Deferred) : Deferred × Except Fault Appraiser :=
  match d.appraiser with
  | some a => (d, .ok a)
  | none =>
    match d.needRegistry with
    | (d, .ok g) => ({ d with appraiser := some ⟨g, d.settings.traceHead⟩ }, .ok ⟨g, d.settings.traceHead⟩)
    | (d, .error f) => (d, .error f)

/-- The service with nothing but its registry made, as it is once it was started. -/
def opened (host : Host) (settings : Settings) (files : FileStore) : Deferred :=
  (needRegistry ⟨host, settings, files, none, none⟩).1

/-! ### Requests -/

/-- Answers from the registry. -/
def withRegistry (d : Deferred) (answer : Service → Except Fault Reply) : Deferred × Except Fault Reply :=
  match d.needRegistry with
  | (d, .ok g) => (d, answer ⟨d.host, d.settings, d.files, g⟩)
  | (d, .error f) => (d, .error f)

def check (d : Deferred) (now : Citation.Moment) (text : String) : Deferred × Except Fault Reply :=
  match d.needAppraiser with
  | (d, .ok a) => (d, a.check now text)
  | (d, .error f) => (d, .error f)

/-- Drops the parts, and makes the registry anew. -/
def reload (d : Deferred) : Deferred × Except Fault Reply :=
  withRegistry { d with registry := none, appraiser := none } fun s => s.current.map (reloadReply s)

def answer (d : Deferred) (now : Citation.Moment) (body : Option Value) : Route → Deferred × Except Fault Reply
  | .page p => (d, .ok ⟨200, d.host.page d.settings.appName p⟩)
  | .root => d.withRegistry fun s => s.current.map (rootReply s)
  | .health => (d, .ok (ok (.map [("status", .text "healthy")])))
  | .check =>
    match submittedText body with
    | .ok text => d.check now text
    | .error issue => (d, .ok (refuse issue))
  | .dialect => (d, withText body fun text =>
      .ok (ok (.map [("dialect", .text (Submission.Dialect.detect text.toList).name)])))
  | .reload => d.reload
  | .rules => d.withRegistry fun s => s.current.map rulesReply
  | .rule id => d.withRegistry fun s => s.current.map (ruleReply · id)

/-- Answers a request. Where no route answers it, no part is asked for. -/
def handle (d : Deferred) (now : Citation.Moment) (q : Request) : Deferred × Except Fault Reply :=
  match q.route? with
  | some route =>
    let (d, result) := d.answer now q.body route
    (d, result.map (sent q.method))
  | none => (d, (Service.handle ⟨d.host, d.settings, d.files, .ofSource none⟩ now q).2)

/-- The service with other files, if they could be changed. -/
def changed (d : Deferred) : Except FileStore.Fault FileStore → Deferred
  | .ok files => { d with files }
  | .error _ => d

def after (d : Deferred) : Event → Deferred
  | .write p bytes => d.changed (d.files.write p bytes)
  | .delete p => d.changed (d.files.delete p)
  | .request now q => (d.handle now q).1

def run (d : Deferred) (events : List Event) : Deferred := events.foldl after d

end Deferred

/-! ### The service that it is -/

/-- The parts that were made are those of the service: its registry was, and if there is an appraiser, it keeps this
    registry. -/
structure Holds (s : Service) (d : Deferred) : Prop where
  host : d.host = s.host
  settings : d.settings = s.settings
  files : d.files = s.files
  registry : d.registry = some s.registry
  appraiser : ∀ a, d.appraiser = some a → a = ⟨s.registry, s.settings.traceHead⟩

section
variable {s : Service} {d : Deferred} {now : Citation.Moment} {q : Request}

/-- The answer to a request without a route is the same in every service. -/
theorem handle_unrouted (h : q.route? = none) (t : Service) : (s.handle now q).2 = (t.handle now q).2 := by
  cases hpath : q.path? with
  | some path =>
    rw [handle_of_path hpath, handle_of_path hpath]
    rw [Request.route?, hpath, Option.bind_some] at h
    unfold handlePath
    cases hroute : Route.ofPath? path with
    | none => dsimp only; split <;> rfl
    | some route =>
      rw [hroute] at h
      have hadmits : ¬ route.admits q.method = true := by simpa [Option.filter] using h
      dsimp only
      rw [if_neg hadmits, if_neg hadmits]
  | none =>
    obtain ⟨f, -, hhandle⟩ := handle_of_no_path hpath now
    rw [hhandle s, hhandle t]

namespace Holds

theorem needRegistry (h : Holds s d) : d.needRegistry = (d, .ok s.registry) := by
  rw [Deferred.needRegistry, h.registry]

theorem withRegistry (h : Holds s d) (answer : Service → Except Fault Reply) :
    d.withRegistry answer = (d, answer s) := by
  rw [Deferred.withRegistry, h.needRegistry]
  dsimp only
  rw [h.host, h.settings, h.files]

theorem needAppraiser (h : Holds s d) :
    d.needAppraiser.2 = .ok ⟨s.registry, s.settings.traceHead⟩ ∧ Holds s d.needAppraiser.1 := by
  unfold Deferred.needAppraiser
  split
  · rename_i a ha
    exact ⟨by rw [h.appraiser a ha], h⟩
  · rw [h.needRegistry]
    dsimp only
    rw [h.settings]
    refine ⟨rfl, h.host, rfl, h.files, h.registry, fun a ha => ?_⟩
    exact (Option.some.inj ha).symm

theorem check (h : Holds s d) (text : String) :
    (d.check now text).2 = s.check now text ∧ Holds s (d.check now text).1 := by
  have hsame : (⟨s.registry, s.settings.traceHead⟩ : Appraiser).check now text = s.check now text := by
    unfold Appraiser.check Service.check current
    cases s.registry.ruleset <;> rfl
  obtain ⟨hmade, hholds⟩ := h.needAppraiser
  unfold Deferred.check
  generalize d.needAppraiser = made at hmade hholds ⊢
  obtain ⟨e, result⟩ := made
  cases hmade
  exact ⟨hsame, hholds⟩

/-- After a request to reload the registry was just made, whether or not the rules could be read. -/
theorem reload (h : Holds s d) : d.reload.2 = s.reload.2 ∧ Holds s.reload.1 d.reload.1 := by
  have hruleset := freshRegistry_ruleset s.host.readers s.settings s.files
  unfold Deferred.reload Deferred.withRegistry Deferred.needRegistry Service.reload
  dsimp only
  rw [h.host, h.settings, h.files]
  generalize freshRegistry s.host.readers s.settings s.files = outcome at hruleset ⊢
  rcases outcome with ⟨g, f | r⟩
  · exact ⟨rfl, rfl, rfl, rfl, rfl, nofun⟩
  · refine ⟨?_, rfl, rfl, rfl, rfl, nofun⟩
    have hcurrent : current ⟨s.host, s.settings, s.files, g⟩ = .ok r := by
      unfold current
      rw [show g.ruleset = some r from hruleset]
    dsimp only
    rw [hcurrent]
    rfl

theorem answer (h : Holds s d) (body : Option Value) (route : Route) :
    (d.answer now body route).2 = (s.answer now body route).2 ∧
      Holds (s.answer now body route).1 (d.answer now body route).1 := by
  cases route with
  | page p =>
    rw [Deferred.answer, h.host, h.settings]
    exact ⟨rfl, h⟩
  | health | dialect => exact ⟨rfl, h⟩
  | root | rules | rule =>
    rw [Deferred.answer, h.withRegistry]
    exact ⟨rfl, h⟩
  | reload => exact h.reload
  | check =>
    rw [Deferred.answer, Service.answer, withText]
    cases submittedText body with
    | ok text => exact h.check text
    | error issue => exact ⟨rfl, h⟩

theorem handle (h : Holds s d) (now : Citation.Moment) (q : Request) :
    (d.handle now q).2 = (s.handle now q).2 ∧ Holds (s.handle now q).1 (d.handle now q).1 := by
  unfold Deferred.handle
  cases hroute : q.route? with
  | none =>
    rw [(handle_of_no_route hroute).1]
    exact ⟨handle_unrouted hroute s, h⟩
  | some route =>
    obtain ⟨hreply, hholds⟩ := @answer s d now h q.body route
    have hhandle := @handle_of_route s now q route hroute
    generalize s.handle now q = handled at hhandle ⊢
    subst hhandle
    exact ⟨congrArg (Except.map (sent q.method)) hreply, hholds⟩

theorem changed (h : Holds s d) (outcome : Except FileStore.Fault FileStore) :
    Holds ((outcome.map fun files => { s with files }).toOption.getD s) (d.changed outcome) := by
  cases outcome with
  | ok files => exact ⟨h.host, h.settings, rfl, h.registry, h.appraiser⟩
  | error f => exact h

theorem after (h : Holds s d) (e : Event) : Holds (s.after e) (d.after e) := by
  cases e with
  | request now q => exact (h.handle now q).2
  | write p bytes =>
    rw [Service.after, Service.write, Deferred.after, h.files]
    exact h.changed _
  | delete p =>
    rw [Service.after, Service.delete, Deferred.after, h.files]
    exact h.changed _

theorem run (h : Holds s d) (events : List Event) : Holds (s.run events) (d.run events) := by
  induction events generalizing s d with
  | nil => exact h
  | cons e rest ih => exact ih (h.after e)

end Holds

theorem holds_of_start {host : Host} {environment : OrderedMap String} {files : FileStore}
    (h : start host environment files = .ok s) : Holds s (Deferred.opened s.host s.settings files) := by
  obtain ⟨settings, registry, r, -, -, hread, rfl⟩ := start_eq_ok_iff.1 h
  refine ⟨rfl, rfl, rfl, ?_, nofun⟩
  rw [Deferred.opened, Deferred.needRegistry]
  dsimp only
  rw [hread]

/-- After any events each request is answered as by the service with one registry. -/
theorem Deferred.handle_run {host : Host} {environment : OrderedMap String} {files : FileStore}
    (h : start host environment files = .ok s) (events : List Event) (now : Citation.Moment) (q : Request) :
    (((Deferred.opened s.host s.settings files).run events).handle now q).2 = ((s.run events).handle now q).2 :=
  (((holds_of_start h).run events).handle now q).1

end
end Appraisal.Service
