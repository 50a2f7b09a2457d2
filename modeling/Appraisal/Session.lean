import Appraisal.Appraise
import Appraisal.Registry

/-! Sessions: files and their readers, a registry and the beginning of ids. Each step gives an answer or a fault and
    goes on. Only loading changes the registry, and only writing and deleting change the files. -/

namespace Appraisal

structure Session where
  readers : Readers
  files : FileStore
  registry : Registry
  head : String

namespace Session

inductive Step where
  | write (p : FileStore.Path) (bytes : List UInt8)
  | delete (p : FileStore.Path)
  | loadDocument (v : Value)
  /-- Loads from the source, or from the registry's own. -/
  | load (source : Option FileStore.Path)
  | ruleset
  | rule (id : String)
  | appraise (text : List Char) (now : Citation.Moment)

inductive Answer where
  | done
  | version (s : String)
  | ruleset (r : Ruleset)
  | rule (r : Option Rule)
  | appraised (a : Appraised)

inductive Fault where
  | file (p : FileStore.Path) (f : FileStore.Fault)
  | load (f : LoadFault)
  | noRuleset
  | appraisal (f : AppraisalFault)

def current (s : Session) : Except Fault Ruleset :=
  match s.registry.ruleset with
  | some r => .ok r
  | none => .error .noRuleset

def loaded (s : Session) : Registry × Except LoadFault Ruleset → Session × Except Fault Answer
  | (g, .ok r) => ({ s with registry := g }, .ok (.version r.version))
  | (g, .error f) => ({ s with registry := g }, .error (.load f))

/-- The session with other files, if they could be changed at a path. -/
def changed (s : Session) (p : FileStore.Path) : Except FileStore.Fault FileStore → Session × Except Fault Answer
  | .ok files => ({ s with files }, .ok .done)
  | .error f => (s, .error (.file p f))

/-- The session after a step, and what the step gives. -/
def step (s : Session) : Step → Session × Except Fault Answer
  | .write p bytes => s.changed p (s.files.write p bytes)
  | .delete p => s.changed p (s.files.delete p)
  | .loadDocument v => s.loaded (s.registry.loadDocument v)
  | .load source => s.loaded (s.registry.load s.readers s.files source)
  | .ruleset => (s, s.current.map .ruleset)
  | .rule id => (s, s.current.map fun r => .rule (r.rule? id))
  | .appraise text now => (s, s.current.bind fun r =>
      match r.appraise text now s.head with
      | .ok a => .ok (.appraised a)
      | .error f => .error (.appraisal f))

def run (s : Session) (steps : List Step) : Session := steps.foldl (fun s x => (s.step x).1) s

end Session
end Appraisal
