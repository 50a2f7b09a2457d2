import Appraisal.Ruleset.Checked

/-! Rulesets as documents. In reading, absent parts have defaults, `null` stands for an empty part, an incomplete
    condition is kept as text, and what has no meaning is kept as extras. Rule ids are distinct in every ruleset that is
    accepted. Rules and rulesets are written in their complete form. -/

namespace Appraisal

/-! ### Reading -/

/-- The entries whose keys have no meaning in a record. -/
def extrasBeyond (known : List String) (entries : List (String × Value)) : OrderedMap Value :=
  .ofList (entries.filter fun e => !known.contains e.1)

namespace Condition

/-- The value under `key` if it is there and not `null`. -/
def given? (entries : List (String × Value)) (key : String) : Option Value :=
  match Entries.get? key entries with
  | some .null | none => none
  | some v => some v

/-- The kind that an entry names for itself. -/
def namedKind? : Option Value → Option Kind
  | some (.text s) => if s = Kind.comparison.name then some .comparison
    else if s = Kind.unparsed.name then some .unparsed else none
  | _ => none

/-- The kind of an entry: the one that it names, else a comparison if it has a field and a known operator. -/
def kindOf : Value → Except Breakdown Kind
  | .map entries =>
    match namedKind? (Entries.get? "kind" entries) with
    | some kind => .ok kind
    | none =>
      if ((Entries.get? "field" entries).getD .null).isBlank then .ok .unparsed
      else match Entries.get? "op" entries with
        | some (.list _) | some (.map _) => .error .noLookup
        | some op => .ok (if (Operator.ofValue? op).isSome then .comparison else .unparsed)
        | none => .ok .unparsed
  | _ => .ok .unparsed

/-- The kind that an entry names has to be the one that it has. -/
def checkKind (wanted : Kind) (entries : List (String × Value)) : Checked Unit :=
  Checked.field entries "kind" (.accepted ()) fun
    | .text s => if s = wanted.name then .accepted () else .flawed (.wrongKind wanted)
    | _ => .flawed (.wrongKind wanted)

def checkOperator (v : Value) : Checked Operator :=
  match Operator.ofValue? v with
  | some op => .accepted op
  | none => .flawed .unknownOperator

def readComparison (entries : List (String × Value)) : Checked Condition :=
  (fun _ field op => comparison field op ((Entries.get? "value" entries).getD .null))
    <$> checkKind .comparison entries
    <*> Checked.field entries "field" (.flawed .missing) Checked.text
    <*> Checked.field entries "op" (.flawed .missing) checkOperator

/-- The text that stands for an incomplete comparison: what there is of field, operator and value. -/
def joinedParts (entries : List (String × Value)) : String :=
  " ".intercalate ((["field", "op", "value"].filterMap (given? entries)).map Value.display)

/-- The raw text of an entry; where it is blank, the parts of the comparison. -/
def rawValue (entries : List (String × Value)) : Value :=
  let raw := (Entries.get? "raw" entries).getD .null
  if raw.isBlank then .text (joinedParts entries) else raw

/-- A condition that is kept as text, from its entries. -/
def readUnparsed (entries : List (String × Value)) : Checked Condition :=
  (fun _ raw => unparsed raw (extrasBeyond ["kind", "raw"] entries))
    <$> checkKind .unparsed entries
    <*> (Checked.text (rawValue entries)).within (.key "raw")

/-- A condition from an entry of a rule. -/
def read (v : Value) : Checked Condition :=
  match kindOf v with
  | .error b => .aborted b
  | .ok kind => Checked.within (.key kind.name) <|
    match kind, v with
    | .comparison, .map entries => readComparison entries
    | .unparsed, .map entries => readUnparsed entries
    | .unparsed, .text s => readUnparsed [("raw", .text s)]
    | _, _ => .flawed (.notRecord "UnparsedCondition")

end Condition

namespace Consequence

def ofEntries (entries : List (String × Value)) : Checked Consequence :=
  (fun judgement => ⟨judgement, extrasBeyond ["judgement"] entries⟩)
    <$> Checked.field entries "judgement" (.accepted "") (Checked.textOr "")

def read : Value → Checked Consequence
  | .null => ofEntries []
  | v => (Checked.record "Consequence" v).andThen ofEntries

end Consequence

namespace Rule

/-- The key that holds the conditions: `if`, or `conditions` where there is no `if`. -/
def conditionsKey (entries : List (String × Value)) : String :=
  if (Entries.get? "if" entries).isNone && (Entries.get? "conditions" entries).isSome then "conditions" else "if"

/-- A list of conditions, where `null` stands for none. -/
def readConditions : Value → Checked (List Condition)
  | .null => .accepted []
  | v => Checked.list Condition.read v

def ofEntries (entries : List (String × Value)) : Checked Rule :=
  let key := conditionsKey entries
  let known := ["id", "name", "group", "cit", "level", key, "then", "rationale", "status"]
  (fun id name group cit level conditions consequence rationale status =>
    { id, name, group, cit, level, conditions, consequence, rationale, status
      extras := extrasBeyond known entries })
    <$> Checked.field entries "id" (.flawed .missing) Checked.label
    <*> Checked.field entries "name" (.accepted "") (Checked.textOr "")
    <*> Checked.field entries "group" (.accepted "") (Checked.textOr "")
    <*> Checked.field entries "cit" (.accepted "") (Checked.textOr "")
    <*> Checked.field entries "level" (.accepted none) Checked.optionalText
    <*> Checked.field entries key (.accepted []) readConditions
    <*> Checked.field entries "then" (.accepted .none) Consequence.read
    <*> Checked.field entries "rationale" (.accepted none) Checked.optionalText
    <*> Checked.field entries "status" (.accepted none) Checked.optionalText

def read (v : Value) : Checked Rule := (Checked.record "Rule" v).andThen ofEntries

end Rule

namespace Defaults

def ofEntries (entries : List (String × Value)) : Checked Defaults :=
  (fun level => ⟨level, extrasBeyond ["level"] entries⟩)
    <$> Checked.field entries "level" (.accepted standard.level) (Checked.textOr standard.level)

def read : Value → Checked Defaults
  | .null => ofEntries []
  | v => (Checked.record "RulesetDefaults" v).andThen ofEntries

end Defaults

namespace Ruleset

/-- A series of texts: the items of a list, the keys of a mapping, or the characters of a text, as text. A blank
    value is the empty series. -/
def readSeries (v : Value) : Checked (List String) :=
  if v.isBlank then .accepted []
  else match v with
    | .list items => .accepted (items.map Value.display)
    | .map entries => .accepted (entries.map Prod.fst)
    | .text s => .accepted (s.toList.map Char.toString)
    | _ => .aborted .notASeries

/-- The series under the keys of a mapping. -/
def readSeriesEntries : List (String × Value) → Checked (List (String × List String))
  | [] => .accepted []
  | (key, v) :: rest => (fun series more => (key, series) :: more) <$> readSeries v <*> readSeriesEntries rest

/-- A table of series, where `null` stands for the empty one. -/
def readTable : Value → Checked (OrderedMap (List String))
  | .null => .accepted .empty
  | .map entries => (readSeriesEntries entries).map .ofList
  | _ => .flawed .notMapping

/-- A label, where `null` stands for the empty one. -/
def readLabel : Value → Checked String
  | .null => .accepted ""
  | v => Checked.label v

/-- A list of rules, where `null` stands for none. -/
def readRules : Value → Checked (List Rule)
  | .null => .accepted []
  | v => Checked.list Rule.read v

/-- The first rule id that occurred before, where `seen` holds the ids so far. -/
def firstRepeated (seen : List String) : List Rule → Option String
  | [] => none
  | rule :: rest => if seen.contains rule.id then some rule.id else firstRepeated (rule.id :: seen) rest

/-- Refuses two rules with one id. -/
def checkIds (r : Ruleset) : Checked Ruleset :=
  match firstRepeated [] r.rules with
  | some id => .flawed (.repeatedRule id)
  | none => .accepted r

/-- The keys of a ruleset document that have a meaning. -/
def knownKeys : List String := ["spec", "version", "source", "defaults", "aliases", "ordinal_scales", "rules"]

/-- A ruleset from the entries of its document, before the ids are compared. -/
def ofEntries (entries : List (String × Value)) : Checked Ruleset :=
  (fun spec version source defaults aliases scales rules =>
    { spec, version, source, defaults, aliases, scales, rules, extras := extrasBeyond knownKeys entries })
    <$> Checked.field entries "spec" (.accepted "") readLabel
    <*> Checked.field entries "version" (.accepted "") readLabel
    <*> Checked.field entries "source" (.accepted "") readLabel
    <*> Checked.field entries "defaults" (.accepted .standard) Defaults.read
    <*> Checked.field entries "aliases" (.accepted .empty) readTable
    <*> Checked.field entries "ordinal_scales" (.accepted .empty) readTable
    <*> Checked.field entries "rules" (.accepted []) readRules

def read (v : Value) : Checked Ruleset := ((Checked.record "Ruleset" v).andThen ofEntries).andThen checkIds

end Ruleset

/-! ### Writing -/

namespace Condition

def toValue : Condition → Value
  | comparison field op value =>
    .map [("kind", .text Kind.comparison.name), ("field", .text field), ("op", .text op.symbol), ("value", value)]
  | unparsed raw extras => .map ([("kind", .text Kind.unparsed.name), ("raw", .text raw)] ++ extras.entries)

end Condition

def Consequence.toValue (c : Consequence) : Value := .map (("judgement", .text c.judgement) :: c.extras.entries)

def Rule.toValue (r : Rule) : Value :=
  .map ([("id", .text r.id), ("name", .text r.name), ("group", .text r.group), ("cit", .text r.cit),
    ("level", .textOr r.level), ("if", .list (r.conditions.map Condition.toValue)),
    ("then", r.consequence.toValue), ("rationale", .textOr r.rationale), ("status", .textOr r.status)] ++
    r.extras.entries)

def Defaults.toValue (d : Defaults) : Value := .map (("level", .text d.level) :: d.extras.entries)

def Ruleset.tableValue (table : OrderedMap (List String)) : Value := .map (table.map Value.texts).entries

def Ruleset.toValue (r : Ruleset) : Value :=
  .map ([("spec", .text r.spec), ("version", .text r.version), ("source", .text r.source),
    ("defaults", r.defaults.toValue), ("aliases", tableValue r.aliases), ("ordinal_scales", tableValue r.scales),
    ("rules", .list (r.rules.map Rule.toValue))] ++ r.extras.entries)

end Appraisal
