import Appraisal.Ruleset.Basic
import Appraisal.Value.Canonical

/-! The ruleset that comes with the library: feasibility notes on solid ion conductors. It is a document, and a file in
    JSON. -/

namespace Appraisal.Ruleset.Bundled

/-- The document of a comparison. -/
def compares (field : String) (op : Operator) (value : Value) : Value :=
  .map [("field", .text field), ("op", .text op.symbol), ("value", value)]

/-- The document of a rule; a level of `none` leaves the key out. -/
def rule (id name group cit : String) (level : Option String) (conditions : List Value)
    (consequence : List (String × Value)) (rationale status : String) : Value :=
  .map ([("id", .text id), ("name", .text name), ("group", .text group), ("cit", .text cit)] ++
    (level.map fun l => ("level", Value.text l)).toList ++
    [("if", .list conditions), ("then", .map consequence), ("rationale", .text rationale), ("status", .text status)])

def aliases : Value := .map [
  ("IonPathDimensionality", .texts ["Ion Path Dimensionality", "Dimensionality", "ion_path_dim"]),
  ("PathContinuity", .texts ["Path Continuity", "Continuity"]),
  ("DataReliability", .texts ["Data Reliability", "Reliability"]),
  ("Conductivity", .texts ["Ionic Conductivity", "sigma"]),
  ("ModerateOrWorseCount", .texts ["ModerateOrWorseCount", "Count of attributes rated moderate or worse"])]

def scales : Value := .map [
  ("IonPathDimensionality", .texts ["1d", "2d", "3d"]),
  ("DataReliability", .texts ["unreliable", "partial", "validated"])]

def rules : List Value := [
  rule "SSE-H01" "Blocked migration path" "Transport" "Notes §2.1" (some "hard")
    [compares "PathContinuity" .eq (.text "blocked")] [("judgement", .text "Infeasible")]
    "A discontinuous ion path admits no long-range transport." "stable",
  rule "SSE-H02" "One-dimensional path with widespread weaknesses" "Transport" "Notes §2.3" (some "hard")
    [compares "IonPathDimensionality" .eq (.text "1d"), compares "ModerateOrWorseCount" .ge (.int 3)]
    [("judgement", .text "Infeasible")]
    "1D conductors are blocked by single defects; three or more weak attributes compound this." "stable",
  rule "SSE-H03" "Conductivity below practical floor" "Transport" "Notes §3.1" none
    [compares "Conductivity" .lt (.number (.real (.ofDecimal false 1 (-4))))]
    [("judgement", .text "Infeasible"), ("unit", .text "S/cm")]
    "Room-temperature conductivity under 1e-4 S/cm cannot support practical cell currents." "stable",
  rule "SSE-Q01" "Multi-dimensional path on partial evidence" "Evidence" "Notes §4.2" (some "hard")
    [compares "IonPathDimensionality" .ge (.text "2d"), compares "DataReliability" .le (.text "partial")]
    [("judgement", .text "Conditionally feasible")]
    "Transport geometry is favourable but the supporting data needs validation." "provisional",
  rule "SSE-A01" "Several attributes rated moderate or worse" "Ratings" "Notes §5.1" (some "soft")
    [compares "ModerateOrWorseCount" .ge (.int 2)] [("judgement", .text "Multiple attributes need improvement")]
    "Two or more weak attributes usually require a dedicated mitigation plan." "stable",
  rule "SSE-A02" "Flexible framework" "Structure" "Notes §5.4" (some "soft")
    [compares "PathContinuity" .eq (.text "flexible")] [("judgement", .text "Monitor framework flexibility")]
    "Flexible frameworks can close bottlenecks under cycling strain." "draft",
  rule "SSE-A03" "Grain boundary dominated transport" "Microstructure" "Notes §6" (some "soft")
    [.map [("raw", .text "grain boundary resistance exceeds bulk resistance")]]
    [("judgement", .text "Check grain boundary resistance")] "Not yet machine-evaluable." "draft"]

def document : Value := .map [
  ("spec", .text "SSE-Lang"), ("version", .text "0.2.0"), ("source", .text "SSE feasibility notes, rev. 2"),
  ("defaults", .map [("level", .text "hard")]), ("aliases", aliases), ("ordinal_scales", scales),
  ("rules", .list rules)]

mutual

/-- The text of a value, with the entries of every mapping in their own order. -/
def written : Value → List Char
  | .list items => '[' :: Value.joined (writtenItems items) ++ [']']
  | .map entries => '\x7b' :: Value.joined ((writtenEntries entries).map Value.member) ++ ['\x7d']
  | v => v.canonical

def writtenItems : List Value → List (List Char)
  | [] => []
  | v :: rest => written v :: writtenItems rest

def writtenEntries : List (String × Value) → List (String × List Char)
  | [] => []
  | (key, v) :: rest => (key, written v) :: writtenEntries rest

end

/-- The bytes of the file. -/
def file : List UInt8 := (String.ofList (written document)).toUTF8.toList

end Appraisal.Ruleset.Bundled
