import Appraisal.Citation.Stamp
import Appraisal.Decision
import Appraisal.Text.Encoding
import Appraisal.Text.Hex
import Appraisal.Value.Canonical

/-! Citation records. A record says which version of which ruleset gave which verdict, for which rules and derived
    values, and, if stamped, when. Its id is the hash of its canonical text (FNV-1a over its 16-bit units): the
    fingerprint without the stamp, the trace id with it. -/

namespace Appraisal

/-! ### Hashes -/

namespace Citation

def hashBasis : UInt32 := 0x811C9DC5
def hashPrime : UInt32 := 0x01000193

def hashStep (h : UInt32) (unit : UInt16) : UInt32 := (h ^^^ unit.toUInt32) * hashPrime

/-- The hash of a text that continues after one with hash `h`. -/
def hashFrom (h : UInt32) (cs : List Char) : UInt32 := (Text.units cs).foldl hashStep h

def hash (cs : List Char) : UInt32 := hashFrom hashBasis cs

/-- An id for a text: the given beginning and the hash in eight hexadecimal digits. -/
def idOf (head : String) (cs : List Char) : String := head ++ String.ofList (Text.hex 8 (hash cs).toNat)

theorem hashFrom_append (h : UInt32) (a b : List Char) : hashFrom h (a ++ b) = hashFrom (hashFrom h a) b := by
  simp [hashFrom]

end Citation

/-! ### Records -/

namespace Derivation

def contributorValue (c : Contributor) : Value := .map [("field", .text c.field), ("level", .text c.level)]

/-- A derivation in a record; contributors are left out where there can be none. -/
def recordValue (d : Derivation) : Value :=
  .map ([("name", .text d.name), ("value", d.value)] ++
    match d.contributors with
    | some cs => [("from", .list (cs.map contributorValue))]
    | none => [])

end Derivation

namespace Citation

def Ref.recordValue (r : Ref) : Value := .map [("id", .text r.id), ("cit", .text r.cit), ("level", .text r.level)]

/-- The parts of a ruleset that say which it is. -/
def identityValue (r : Ruleset) : Value :=
  .map [("spec", .text r.spec), ("version", .text r.version), ("source", .text r.source)]

/-- The record of a decision, with its stamp if there is one. -/
def record (d : Decision) (r : Ruleset) (stamp : Option String) : Value :=
  .map ([("ruleset", identityValue r), ("verdict", .text d.verdict.name), ("judgement", .text d.judgement),
    ("primary_rule", d.primary.elim .null Ref.recordValue), ("triggered", .texts d.triggeredIds),
    ("derivations", .list (d.derivations.map Derivation.recordValue))] ++
    match stamp with
    | some s => [("when", .text s)]
    | none => [])

def recordId (head : String) (v : Value) : String := idOf head v.canonical

def standardHead : String := "SSE-"

structure Trace where
  submittedAt : String
  fingerprint : String
  traceId : String
  deriving DecidableEq, Repr

/-- The trace of a decision that is taken at a moment. -/
def trace (d : Decision) (r : Ruleset) (now : Moment) (head : String) : Except OutOfCalendar Trace :=
  now.stamp.map fun s =>
    { submittedAt := s
      fingerprint := recordId head (record d r none)
      traceId := recordId head (record d r (some s)) }

end Citation
end Appraisal
