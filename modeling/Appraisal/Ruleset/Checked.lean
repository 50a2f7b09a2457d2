import Appraisal.Ruleset.Basic

/-! Checking documents. All parts of a document are checked, and what is wrong is collected in the order of the
    parts, each issue with the path to its place. A breakdown ends the whole check and hides the issues. Main
    facts: `Checked.seq_eq_accepted` (two parts together are accepted if both are). -/

namespace Appraisal

/-- A step on the way to a part of a document. -/
inductive PathStep where
  | key (name : String)
  | index (i : Nat)
  deriving DecidableEq, Repr

/-- What is wrong with a part of a document. -/
inductive Flaw where
  | missing
  | notText
  | notList
  | notMapping
  | notTruthValue
  /-- A mapping that describes `record` is wanted. -/
  | notRecord (record : String)
  /-- A request whose body is no mapping. -/
  | notBody
  | wrongKind (wanted : Condition.Kind)
  | unknownOperator
  | repeatedRule (id : String)
  deriving DecidableEq, Repr

namespace Flaw

/-- The short name of a flaw in answers. -/
def code : Flaw → String
  | missing => "missing"
  | notText => "string_type"
  | notList => "list_type"
  | notMapping => "dict_type"
  | notTruthValue => "bool_parsing"
  | notRecord _ => "model_type"
  | notBody => "model_attributes_type"
  | wrongKind _ => "literal_error"
  | unknownOperator => "enum"
  | repeatedRule _ => "value_error"

def message : Flaw → String
  | missing => "Field required"
  | notText => "Input should be a valid string"
  | notList => "Input should be a valid list"
  | notMapping => "Input should be a valid dictionary"
  | notTruthValue => "Input should be a valid boolean, unable to interpret input"
  | notRecord record => "Input should be a valid dictionary or instance of " ++ record
  | notBody => "Input should be a valid dictionary or object to extract fields from"
  | wrongKind wanted => "Input should be '" ++ wanted.name ++ "'"
  | unknownOperator => "Input should be '=', '!=', '>', '>=', '<' or '<='"
  | repeatedRule id => "Value error, Duplicate rule id: " ++ id

end Flaw

/-- A flaw and the path to it from the top of the document. -/
structure Issue where
  path : List PathStep
  flaw : Flaw
  deriving DecidableEq, Repr

/-- Why a check cannot go on. -/
inductive Breakdown where
  /-- Synonyms or levels that are no series of items. -/
  | notASeries
  /-- An operator that is a list or a mapping and so cannot be looked up. -/
  | noLookup
  deriving DecidableEq, Repr

inductive Checked (α : Type) where
  | accepted (a : α)
  | rejected (issues : List Issue)
  | aborted (b : Breakdown)
  deriving DecidableEq, Repr

namespace Checked
variable {α β : Type}

def map (f : α → β) : Checked α → Checked β
  | accepted a => accepted (f a)
  | rejected issues => rejected issues
  | aborted b => aborted b

/-- Two checks, the first for a function of what the second gives. -/
def seq : Checked (α → β) → Checked α → Checked β
  | aborted b, _ => aborted b
  | _, aborted b => aborted b
  | rejected i, rejected j => rejected (i ++ j)
  | rejected i, accepted _ => rejected i
  | accepted _, rejected j => rejected j
  | accepted f, accepted a => accepted (f a)

instance : Applicative Checked where
  pure := accepted
  map := map
  seq f x := seq f (x ())

def andThen (c : Checked α) (f : α → Checked β) : Checked β :=
  match c with
  | accepted a => f a
  | rejected issues => rejected issues
  | aborted b => aborted b

/-- Rejects with one flaw of the part itself. -/
def flawed (flaw : Flaw) : Checked α := rejected [⟨[], flaw⟩]

/-- The check of a part, as seen from the document that holds it. -/
def within (step : PathStep) : Checked α → Checked α
  | accepted a => accepted a
  | rejected issues => rejected (issues.map fun i => { i with path := step :: i.path })
  | aborted b => aborted b

/-- The check of each item, as seen from the list; `i` is the index of the first. -/
def itemsFrom (check : Value → Checked α) : (i : Nat) → List Value → Checked (List α)
  | _, [] => accepted []
  | i, v :: vs => seq (map List.cons ((check v).within (.index i))) (itemsFrom check (i + 1) vs)

/-- The check of a list with a check of its items. -/
def list (check : Value → Checked α) : Value → Checked (List α)
  | .list vs => itemsFrom check 0 vs
  | _ => flawed .notList

/-- The check of the value under a key; `absent` is the outcome where there is none. -/
def field (entries : List (String × Value)) (key : String) (absent : Checked α) (check : Value → Checked α) :
    Checked α :=
  match Entries.get? key entries with
  | some v => (check v).within (.key key)
  | none => absent.within (.key key)

def text : Value → Checked String
  | .text s => accepted s
  | _ => flawed .notText

/-- A text, where `null` stands for `default`. -/
def textOr (default : String) : Value → Checked String
  | .null => accepted default
  | v => text v

def optionalText : Value → Checked (Option String)
  | .null => accepted none
  | v => (text v).map some

/-- A text; numbers and truth values are written as text. -/
def label : Value → Checked String
  | .number n => accepted (Value.number n).display
  | .bool b => accepted (Value.bool b).display
  | v => text v

/-- The entries of a mapping; anything else is not the `record` that is wanted. -/
def record (name : String) : Value → Checked (List (String × Value))
  | .map entries => accepted entries
  | _ => flawed (.notRecord name)

theorem seq_eq_accepted {f : Checked (α → β)} {x : Checked α} {b : β} :
    seq f x = accepted b ↔ ∃ g a, f = accepted g ∧ x = accepted a ∧ g a = b := by
  cases f <;> cases x <;> simp [seq]

theorem map_eq_accepted {f : α → β} {x : Checked α} {b : β} :
    map f x = accepted b ↔ ∃ a, x = accepted a ∧ f a = b := by
  cases x <;> simp [map]

theorem within_eq_accepted {step : PathStep} {x : Checked α} {a : α} :
    within step x = accepted a ↔ x = accepted a := by
  cases x <;> simp [within]

end Checked
end Appraisal
