import Appraisal.FileStore
import Appraisal.Ruleset.Document
import Appraisal.Text.Encoding
import Appraisal.Value.DistinctKeys

/-! The registry holds the current ruleset, the path of the file it was read from, and which sections its document
    lacked. Loading replaces them one after another: the lacking sections as soon as the document is known to be a
    mapping, the ruleset once the document is accepted, and the path last. A file holds its document in JSON if its name
    ends so, and else in YAML. -/

namespace Appraisal

/-- A section that a ruleset document should have. -/
inductive Section where
  | aliases
  | scales
  | rules
  deriving DecidableEq, Repr

namespace Section

def key : Section → String
  | aliases => "aliases"
  | scales => "ordinal_scales"
  | rules => "rules"

def all : List Section := [aliases, scales, rules]

/-- The remark that a section is lacking. -/
def remark (s : Section) : String := "Ruleset is missing '" ++ s.key ++ "'; treating it as empty"

/-- The sections that a document lacks. -/
def lacking (entries : List (String × Value)) : List Section :=
  all.filter fun s => (Condition.given? entries s.key).isNone

end Section

/-- The readers of documents, as far as they are not fixed here. -/
structure Readers where
  /-- How deep lists and mappings may stand in one another in JSON. -/
  depth : Nat
  /-- The document of a YAML text with line feeds as its only line ends. Its parts are of the kinds that JSON has, like
      those of every ruleset. -/
  yaml : List Char → Except Value.ReadFault Value
  /-- No mapping that is read from YAML has a key twice. -/
  distinctKeys : ∀ {cs : List Char} {v : Value}, yaml cs = .ok v → v.DistinctKeys

/-- Reads the text of the file at a path. -/
def Readers.read (readers : Readers) (p : FileStore.Path) (cs : List Char) : Except Value.ReadFault Value :=
  if lowerText p.suffix = ".json" then Value.read readers.depth cs else readers.yaml cs

inductive LoadFault where
  | noPath
  | notFound (p : FileStore.Path)
  | nameTooLong
  | directory
  | notUtf8
  | unreadable
  | tooDeep
  | tooManyDigits (e : TooManyDigits)
  /-- The document is no mapping but of another kind. -/
  | notMapping (kind : String)
  | rejected (issues : List Issue)
  | aborted (b : Breakdown)
  deriving DecidableEq, Repr

/-- The message of a fault, where it has one. -/
def LoadFault.message? : LoadFault → Option String
  | noPath => some "No ruleset path specified"
  | notFound p => some ("Ruleset file not found: " ++ p.text)
  | tooManyDigits e => some e.message
  | notMapping kind => some ("Ruleset document must be a mapping, got " ++ kind)
  | nameTooLong | directory | notUtf8 | unreadable | tooDeep | rejected _ | aborted _ => none

def Value.kindName : Value → String
  | .null => "NoneType"
  | .bool _ => "bool"
  | .number (.int _) => "int"
  | .number (.real _) => "float"
  | .text _ => "str"
  | .list _ => "list"
  | .map _ => "dict"

/-- The current ruleset, the path of its file, and the sections that its document lacks. -/
structure Registry where
  source : Option FileStore.Path
  ruleset : Option Ruleset
  lacking : List Section

namespace Registry

/-- The registry with a source from which nothing has been loaded. -/
def ofSource (source : Option FileStore.Path) : Registry := ⟨source, none, []⟩

/-- The path that a text names; an empty one names none. -/
def sourceOf (path : Option String) : Option FileStore.Path := (path.filter (!·.isEmpty)).map .ofText

def loadDocument (g : Registry) (v : Value) : Registry × Except LoadFault Ruleset :=
  match v with
  | .map entries =>
    let g := { g with lacking := Section.lacking entries }
    match Ruleset.read v with
    | .accepted r => ({ g with ruleset := some r }, .ok r)
    | .rejected issues => (g, .error (.rejected issues))
    | .aborted b => (g, .error (.aborted b))
  | v => (g, .error (.notMapping v.kindName))

/-- The document that some bytes are the text of, in the file at a path. -/
def documentOf (readers : Readers) (p : FileStore.Path) (bytes : List UInt8) : Except LoadFault Value :=
  match Text.Utf8.decode? bytes with
  | none => .error .notUtf8
  | some cs =>
    match readers.read p (Text.plainLineEnds cs) with
    | .ok v => .ok v
    | .error .malformed => .error .unreadable
    | .error .tooDeep => .error .tooDeep
    | .error (.tooManyDigits e) => .error (.tooManyDigits e)

def documentAt (readers : Readers) (files : FileStore) (p : FileStore.Path) : Except LoadFault Value :=
  match files.entry p with
  | .ok (.file bytes) => documentOf readers p bytes
  | .ok .directory => .error .directory
  | .error .tooLong => .error .nameTooLong
  | .error _ => .error (.notFound p)

/-- Loads a ruleset from a source, or from the registry's own where none is given. -/
def load (g : Registry) (readers : Readers) (files : FileStore) (source : Option FileStore.Path) :
    Registry × Except LoadFault Ruleset :=
  match source.or g.source with
  | none => (g, .error .noPath)
  | some source =>
    match documentAt readers files source with
    | .error f => (g, .error f)
    | .ok v =>
      match g.loadDocument v with
      | (g, .ok r) => ({ g with source := some source }, .ok r)
      | (g, .error f) => (g, .error f)

end Registry
end Appraisal
