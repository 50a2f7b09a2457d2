import Appraisal.OrderedMap
import Appraisal.Ruleset.Operator
import Appraisal.Text.Case
import Appraisal.Text.Class
import Appraisal.Value.Basic

/-! Rules and rulesets. A rule holds conditions and a consequence; a ruleset holds rules in their order of
    declaration, the names of fields, and the scales on which the values of some fields are ordered. Parts of a
    document that have no meaning here are kept as extras.

    A ruleset declares canonical names of fields, each with synonyms; a vocabulary maps the lower case of every such
    name to the canonical one. Synonyms are entered first and canonical names after them, and a later entry replaces an
    earlier one, so a canonical name stands for itself unless a later one differs from it in letter case only. -/

namespace Appraisal

/-! ### Names of fields -/

/-- Canonical names by the lower case of their spellings. -/
abbrev Vocabulary := OrderedMap String

namespace Vocabulary

/-- The form under which a spelling is looked up. -/
def lookupKey (name : String) : String := lowerText (stripText name)

def addSynonyms (v : Vocabulary) (canonical : String) (synonyms : List String) : Vocabulary :=
  synonyms.foldl (fun v s => v.put (lookupKey s) canonical) v

/-- The vocabulary of a table of canonical names with their synonyms. -/
def ofAliases (aliases : OrderedMap (List String)) : Vocabulary :=
  let withSynonyms := aliases.entries.foldl (fun v e => addSynonyms v e.1 e.2) OrderedMap.empty
  aliases.keys.foldl (fun v canonical => v.put (lowerText canonical) canonical) withSynonyms

/-- The canonical name for a spelling; a spelling that is not known stands for itself. -/
def resolve (v : Vocabulary) (name : String) : String := (v.get? (lookupKey name)).getD name

/-- As `resolve`, for a key that may be any value. -/
def resolveKey (v : Vocabulary) (key : Value) : Value := (v.get? (lookupKey key.display)).elim key .text

end Vocabulary

/-! ### Rules -/

/-- A condition of a rule: a comparison of a field with a value, or a text that cannot be evaluated. -/
inductive Condition where
  | comparison (field : String) (op : Operator) (value : Value)
  | unparsed (raw : String) (extras : OrderedMap Value)

namespace Condition

inductive Kind where
  | comparison
  | unparsed
  deriving DecidableEq, Repr

def Kind.name : Kind → String
  | comparison => "comparison"
  | unparsed => "unparsed"

def kind : Condition → Kind
  | comparison .. => .comparison
  | unparsed .. => .unparsed

def describe : Condition → String
  | comparison field op value => field ++ " " ++ op.symbol ++ " " ++ value.display
  | unparsed raw _ => raw

end Condition

structure Consequence where
  judgement : String
  extras : OrderedMap Value

namespace Consequence

/-- The consequence that says nothing. -/
def none : Consequence := ⟨"", .empty⟩

end Consequence

/-- A rule. It triggers if all its conditions hold. -/
structure Rule where
  id : String
  name : String
  group : String
  cit : String
  level : Option String
  conditions : List Condition
  consequence : Consequence
  rationale : Option String
  status : Option String
  extras : OrderedMap Value

namespace Rule

def judgement (r : Rule) : String := r.consequence.judgement

end Rule

/-- How much weight a rule has. -/
inductive Severity where
  | hard
  | soft
  deriving DecidableEq, Repr

def Severity.name : Severity → String
  | .hard => "hard"
  | .soft => "soft"

/-- What holds for all rules that do not say otherwise. -/
structure Defaults where
  level : String
  extras : OrderedMap Value

namespace Defaults

/-- Rules are hard unless they say otherwise. -/
def standard : Defaults := ⟨Severity.hard.name, .empty⟩

end Defaults

/-- A versioned set of rules with the vocabulary and the scales that they use. -/
structure Ruleset where
  spec : String
  version : String
  source : String
  defaults : Defaults
  aliases : OrderedMap (List String)
  scales : OrderedMap (List String)
  rules : List Rule
  extras : OrderedMap Value

namespace Ruleset

/-- The first of some texts that is not empty. -/
def firstFilled (texts : List String) : Option String := texts.find? (!·.isEmpty)

/-- The level of a rule: its own, else the default one, where empty levels do not count. -/
def levelOf (r : Ruleset) (rule : Rule) : String :=
  (firstFilled [rule.level.getD "", r.defaults.level]).getD Severity.hard.name

/-- A rule is soft if its level says so, in any case and with white space around it; else it is hard. -/
def severityOf (r : Ruleset) (rule : Rule) : Severity :=
  if lowerText (stripText (r.levelOf rule)) = Severity.soft.name then .soft else .hard

def rule? (r : Ruleset) (id : String) : Option Rule := r.rules.find? (·.id == id)

def vocabulary (r : Ruleset) : Vocabulary := .ofAliases r.aliases

/-- The scale of a field, if it has one with a level on it. -/
def scale? (r : Ruleset) (field : String) : Option (List String) :=
  match r.scales.get? field with
  | some (l :: ls) => some (l :: ls)
  | _ => none

end Ruleset

end Appraisal
