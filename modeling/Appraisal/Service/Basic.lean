import Appraisal.Appraise
import Appraisal.Registry
import Appraisal.Ruleset.Bundled
import Appraisal.Service.Route
import Appraisal.Settings.Basic

/-! The service. It holds the settings and the registry of the rules, which it loads when it starts and whenever it is
    asked to reload. Reloading begins with an empty registry: if it fails, there is no ruleset until a later
    reloading succeeds. -/

namespace Appraisal

/-- What a service finds where it is installed. -/
structure Host where
  readers : Readers
  /-- The path of the ruleset file that comes with the library. -/
  bundled : String
  /-- What a page shows for a service of this name, if that is a document. -/
  page : (appName : String) → Service.Page → Option Value

/-- A running service and the files that it sees. -/
structure Service where
  host : Host
  settings : Settings
  files : FileStore
  registry : Registry

namespace Service

def version : String := "0.2.0"

structure Request where
  method : String
  target : String
  body : Option Value

structure Reply where
  status : Nat
  /-- The document that is sent, if one is. -/
  body : Option Value

inductive StartFault where
  | settings (f : Settings.Fault)
  /-- The service has an empty name. -/
  | noName
  | load (f : LoadFault)

/-- What goes wrong in a request that has no reply. -/
inductive Fault where
  | target (f : Target.Fault)
  /-- The body cannot be sent: it has a number that is not finite. -/
  | body
  | noRuleset
  | load (f : LoadFault)
  | appraisal (f : AppraisalFault)

/-- The message about a body that cannot be sent. -/
def bodyMessage : String := "Out of range float values are not JSON compliant"

/-! ### Loading -/

/-- The files of a host after the ruleset of the library was put in its place. -/
def install (host : Host) (files : FileStore) : Except FileStore.Fault FileStore :=
  files.write (.ofText host.bundled) Ruleset.Bundled.file

/-- A fresh registry into which the rules were loaded. -/
def freshRegistry (readers : Readers) (settings : Settings) (files : FileStore) : Registry × Except LoadFault Ruleset :=
  (Registry.ofSource (Registry.sourceOf (some settings.rulesetPath))).load readers files none

/-- Starts a service. It needs a name before it loads the rules. -/
def start (host : Host) (environment : OrderedMap String) (files : FileStore) : Except StartFault Service :=
  match Settings.read host.bundled environment files with
  | .error f => .error (.settings f)
  | .ok settings =>
    if settings.appName.isEmpty then .error .noName
    else match freshRegistry host.readers settings files with
      | (registry, .ok _) => .ok { host, settings, files, registry }
      | (_, .error f) => .error (.load f)

def current (s : Service) : Except Fault Ruleset :=
  match s.registry.ruleset with
  | some r => .ok r
  | none => .error .noRuleset

/-! ### Replies -/

def detail (status : Nat) (text : String) : Reply := ⟨status, some (.map [("detail", .text text)])⟩

def ok (body : Value) : Reply := ⟨200, some body⟩

def stepValue : PathStep → Value
  | .key name => .text name
  | .index i => .int i

def issueValue (i : Issue) : Value :=
  .map [("loc", .list (i.path.map stepValue)), ("type", .text i.flaw.code), ("msg", .text i.flaw.message)]

/-- The reply to a request whose body does not have its form. -/
def refuse (issue : Issue) : Reply := ⟨422, some (.map [("detail", .list [issueValue issue])])⟩

mutual

/-- The value with `null` for the numbers that a reply cannot hold: those that are not finite. -/
def sendable : Value → Value
  | .number (.real (.infinite _)) | .number (.real .nan) => .null
  | .list items => .list (sendableItems items)
  | .map entries => .map (sendableEntries entries)
  | v => v

def sendableItems : List Value → List Value
  | [] => []
  | v :: rest => sendable v :: sendableItems rest

def sendableEntries : List (String × Value) → List (String × Value)
  | [] => []
  | (key, v) :: rest => (key, sendable v) :: sendableEntries rest

end

mutual

/-- All numbers in the value are finite. -/
def isFinite : Value → Bool
  | .number (.real (.infinite _)) | .number (.real .nan) => false
  | .list items => areFinite items
  | .map entries => haveFinite entries
  | _ => true

def areFinite : List Value → Bool
  | [] => true
  | v :: rest => isFinite v && areFinite rest

def haveFinite : List (String × Value) → Bool
  | [] => true
  | (_, v) :: rest => isFinite v && haveFinite rest

end

/-- Which ruleset is in use, and where the service answers. -/
def rootReply (s : Service) (r : Ruleset) : Reply :=
  ok (.map [("name", .text s.settings.appName), ("version", .text version), ("ruleset", Citation.identityValue r),
    ("endpoints", .map [("check", .text "/check - Evaluate a submission"),
      ("dialect", .text "/check/dialect - Detect the input dialect"),
      ("reload", .text "/check/reload - Reload the ruleset"), ("rules", .text "/rules - Rule inspection")])])

def ruleSummary (r : Ruleset) (rule : Rule) : Value :=
  .map [("id", .text rule.id), ("name", .text rule.name), ("group", .text rule.group), ("cit", .text rule.cit),
    ("severity", .text (r.severityOf rule).name), ("judgement", .text rule.judgement),
    ("conditions", .int rule.conditions.length)]

def rulesReply (r : Ruleset) : Reply :=
  ok (.map [("spec", .text r.spec), ("version", .text r.version), ("source", .text r.source),
    ("rules", .list (r.rules.map (ruleSummary r))), ("total", .int r.rules.length)])

def ruleReply (r : Ruleset) (id : String) : Reply :=
  match r.rule? id with
  | some rule => ok (.map [("id", .text rule.id), ("severity", .text (r.severityOf rule).name),
      ("rule", sendable rule.toValue)])
  | none => detail 404 ("Rule not found: " ++ id)

def reportReply (r : Submission.Report) : Reply :=
  ⟨422, some <| .map [("error", .text r.cause.code), ("message", .text r.message), ("line", .int r.position.line),
    ("column", .int r.position.column), ("context", .textOr r.excerpt)]⟩

/-! ### Requests -/

def submittedText : Option Value → Except Issue String
  | none | some .null => .error ⟨[.key "body"], .missing⟩
  | some (.map entries) =>
    match Entries.get? "text" entries with
    | some (.text s) => .ok s
    | some _ => .error ⟨[.key "body", .key "text"], .notText⟩
    | none => .error ⟨[.key "body", .key "text"], .missing⟩
  | some _ => .error ⟨[.key "body"], .notBody⟩

/-- Answers for the text that a body submits. -/
def withText (body : Option Value) (answer : String → Except Fault Reply) : Except Fault Reply :=
  match submittedText body with
  | .ok text => answer text
  | .error issue => .ok (refuse issue)

def check (s : Service) (now : Citation.Moment) (text : String) : Except Fault Reply :=
  s.current.bind fun r =>
    match r.appraise text.toList now s.settings.traceHead with
    | .ok a => .ok (ok a.toValue)
    | .error (.submission (.malformed report)) => .ok (reportReply report)
    | .error f => .error (.appraisal f)

/-- Reads the rules again into a fresh registry, which takes the place of the old one in any case. -/
def reload (s : Service) : Service × Except Fault Reply :=
  let (registry, result) := freshRegistry s.host.readers s.settings s.files
  ({ s with registry }, match result with
    | .ok r => .ok (ok (.map [("status", .text "reloaded"), ("rules_loaded", .int r.rules.length),
        ("issues", .texts (registry.lacking.map Section.remark))]))
    | .error f => .error (.load f))

/-- Answers a request for a route with one of its methods. -/
def answer (s : Service) (now : Citation.Moment) (body : Option Value) : Route → Service × Except Fault Reply
  | .page p => (s, .ok ⟨200, s.host.page s.settings.appName p⟩)
  | .root => (s, s.current.map (rootReply s))
  | .health => (s, .ok (ok (.map [("status", .text "healthy")])))
  | .check => (s, withText body (s.check now))
  | .dialect => (s, withText body fun text =>
      .ok (ok (.map [("dialect", .text (Submission.Dialect.detect text.toList).name)])))
  | .reload => s.reload
  | .rules => (s, s.current.map rulesReply)
  | .rule id => (s, s.current.map (ruleReply · id))

/-- Answers a request for a path, where a method that the route does not have is refused. -/
def handlePath (s : Service) (now : Citation.Moment) (q : Request) (path : List Char) : Service × Except Fault Reply :=
  match Route.ofPath? path with
  | some route =>
    if route.admits q.method then s.answer now q.body route
    else (s, .ok (detail 405 "Method Not Allowed"))
  | none =>
    if Route.needsRedirection path then (s, .ok ⟨307, none⟩) else (s, .ok (detail 404 "Not Found"))

/-- The reply to a method as it is sent: no document goes with an answer to HEAD. -/
def sent (method : String) (r : Reply) : Reply := if methodName method = "HEAD" then { r with body := none } else r

/-- Answers a request at a moment, if it can be sent. -/
def handle (s : Service) (now : Citation.Moment) (q : Request) : Service × Except Fault Reply :=
  match Target.ofText q.target with
  | .error f => (s, .error (.target f))
  | .ok target =>
    if !q.body.all isFinite then (s, .error .body)
    else match target.fault? with
      | some f => (s, .error (.target f))
      | none =>
        let (s, result) := s.handlePath now q target.plainPath
        (s, result.map (sent q.method))

def write (s : Service) (p : FileStore.Path) (bytes : List UInt8) : Except FileStore.Fault Service :=
  (s.files.write p bytes).map fun files => { s with files }

def delete (s : Service) (p : FileStore.Path) : Except FileStore.Fault Service :=
  (s.files.delete p).map fun files => { s with files }

end Service
end Appraisal
