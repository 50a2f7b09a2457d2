import Appraisal.Citation.Record
import Appraisal.FileStore
import Appraisal.Ruleset.Checked
import Appraisal.Settings.EnvFile
import Appraisal.Text.Encoding

/-! Settings. Each is taken from the environment variable with its name after `SSE_`, in any letter case, else from the
    file `.env`, else it has a default. -/

namespace Appraisal

structure Settings where
  appName : String
  debug : Bool
  rulesetPath : String
  traceHead : String
  logLevel : String
  deriving DecidableEq, Repr

namespace Settings

/-- Names by lower case; of names that differ in letter case only, the last counts. -/
def lowerNames {α : Type} (m : OrderedMap α) : OrderedMap α :=
  m.entries.foldl (fun acc e => acc.put (lowerText e.1) e.2) .empty

/-- The truth value that a text names, in any letter case. -/
def truth? (s : String) : Option Bool :=
  let s := lowerText s
  if ["1", "true", "t", "yes", "y", "on"].contains s then some true
  else if ["0", "false", "f", "no", "n", "off"].contains s then some false
  else none

/-- Why a name and a value cannot stand in an environment. -/
inductive EnvironmentFault where
  | zeroCharacter
  | equalsSign
  | emptyName
  deriving DecidableEq, Repr

/-- The message of a fault, where it has one. -/
def EnvironmentFault.message? : EnvironmentFault → Option String
  | zeroCharacter => some "embedded null byte"
  | equalsSign => some "illegal environment variable name"
  | emptyName => none

/-- What is wrong with the first name or value that cannot stand in an environment. -/
def environmentFault? (environment : OrderedMap String) : Option EnvironmentFault :=
  environment.entries.findSome? fun e =>
    if e.1.contains '\x00' || e.2.contains '\x00' then some .zeroCharacter
    else if e.1.contains '=' then some .equalsSign
    else if e.1.isEmpty then some .emptyName
    else none

inductive Fault where
  | notUtf8
  | rejected (issues : List Issue)
  deriving DecidableEq, Repr

/-- The settings that some names and values give; `lookup` is asked for the names in lower case. The ruleset is `bundled`
    with the library if nothing else is set. -/
def ofLookup (bundled : String) (lookup : String → Option String) : Except Fault Settings :=
  match (lookup "sse_debug").elim (some false) truth? with
  | none => .error (.rejected [⟨[.key "debug"], .notTruthValue⟩])
  | some debug => .ok
    { appName := (lookup "sse_app_name").getD "SSE Feasibility Checker"
      debug
      rulesetPath := (lookup "sse_ruleset_path").getD bundled
      traceHead := (lookup "sse_trace_prefix").getD Citation.standardHead
      logLevel := (lookup "sse_log_level").getD "INFO" }

/-- The names and values in the file `.env`, if there is one. -/
def fromFile (environment : OrderedMap String) (files : FileStore) : Except Fault (OrderedMap (Option String)) :=
  match files.entry (.ofText ".env") with
  | .ok (.file bytes) =>
    match Text.Utf8.decode? bytes with
    | some cs => .ok (EnvFile.read environment cs)
    | none => .error .notUtf8
  | _ => .ok .empty

/-- The settings under an environment and with some files. -/
def read (bundled : String) (environment : OrderedMap String) (files : FileStore) : Except Fault Settings := do
  let fromFile := lowerNames (← fromFile environment files)
  let fromEnvironment := lowerNames environment
  ofLookup bundled fun name => (fromEnvironment.get? name).or ((fromFile.get? name).getD none)

end Settings
end Appraisal
