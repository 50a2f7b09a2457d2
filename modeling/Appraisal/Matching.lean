import Appraisal.Ruleset.Basic

/-! Matching rules against fields. Two values of a field are compared by their places on the field's scale if both
    are on it, else as numbers if both are numbers, else as texts, which are equal or not and have no order. A
    rule matches if every condition holds; otherwise the first that does not gives the reason. -/

namespace Appraisal

/-- The text by which values are compared: in lower case, and integers written alike whether they are integers
    or floating point numbers. -/
def Value.comparisonText : Value → String
  | .null => "null"
  | .number (.real x) =>
    match x.toInt? with
    | some n => String.ofList (Number.intText n)
    | none => lowerText (String.ofList x.text)
  | v => lowerText v.display

namespace Ruleset

/-- The place of a value on the scale of a field. -/
def ordinal? (r : Ruleset) (field : String) (v : Value) : Option Nat :=
  match r.scale? field with
  | some levels => (levels.map lowerText).idxOf? v.comparisonText
  | none => none

/-- The operator holds between two values of a field. -/
def compare (r : Ruleset) (field : String) (op : Operator) (left right : Value) : Bool :=
  match r.ordinal? field left, r.ordinal? field right with
  | some i, some j => op.holds (Ord.compare i j)
  | _, _ =>
    match left, right with
    | .number a, .number b =>
      match a.compare? b with
      | some o => op.holds o
      | none => op = .ne
    | _, _ =>
      match op with
      | .eq => left.comparisonText = right.comparisonText
      | .ne => left.comparisonText ≠ right.comparisonText
      | _ => false

end Ruleset

inductive Mismatch where
  | unparsed
  | missingField (field : String)
  | failed (description : String)
  deriving DecidableEq, Repr

def Mismatch.reason : Mismatch → String
  | unparsed => "Unparsed condition"
  | missingField field => "Missing field: " ++ field
  | failed description => "Condition failed: " ++ description

namespace Ruleset

/-- Why a condition does not hold, or `none` if it does. -/
def conditionMismatch (r : Ruleset) (fields : OrderedMap Value) (c : Condition) : Option Mismatch :=
  match c with
  | .unparsed .. => some .unparsed
  | .comparison field op value =>
    match fields.get? field with
    | none => some (.missingField field)
    | some left => if r.compare field op left value then none else some (.failed c.describe)

/-- Why a rule does not match, by its first condition that does not hold; `none` if all hold. -/
def mismatch (r : Ruleset) (rule : Rule) (fields : OrderedMap Value) : Option Mismatch :=
  rule.conditions.findSome? (r.conditionMismatch fields)

/-- The rule matches: all its conditions hold. -/
def triggers (r : Ruleset) (fields : OrderedMap Value) (rule : Rule) : Bool := (r.mismatch rule fields).isNone

/-- The rules that match, in the order of declaration. -/
def triggered (r : Ruleset) (fields : OrderedMap Value) : List Rule := r.rules.filter (r.triggers fields)

end Ruleset
end Appraisal
