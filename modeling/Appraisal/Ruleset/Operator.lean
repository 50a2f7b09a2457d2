import Appraisal.Text.Class
import Appraisal.Value.Basic

/-! The six comparison operators. -/

namespace Appraisal

inductive Operator where
  | eq
  | ne
  | gt
  | ge
  | lt
  | le
  deriving DecidableEq, Repr

namespace Operator

def symbol : Operator → String
  | eq => "="
  | ne => "!="
  | gt => ">"
  | ge => ">="
  | lt => "<"
  | le => "<="

def all : List Operator := [eq, ne, gt, ge, lt, le]

def ofSymbol? (s : String) : Option Operator := all.find? (·.symbol == s)

/-- The operator holds between two things in this order. -/
def holds : Operator → Ordering → Bool
  | eq, o => o.isEq
  | ne, o => !o.isEq
  | gt, o => o.isGT
  | ge, o => o.isGE
  | lt, o => o.isLT
  | le, o => o.isLE

/-- An operator as it is written in a document: a text without white space around it, where `==` is another
    spelling of `=`. Anything else is left as it is. -/
def normalize : Value → Value
  | .text s =>
    let s := stripText s
    .text (if s = "==" then "=" else s)
  | v => v

def ofValue? (v : Value) : Option Operator :=
  match normalize v with
  | .text s => ofSymbol? s
  | _ => none

theorem ofSymbol?_symbol (op : Operator) : ofSymbol? op.symbol = some op := by cases op <;> decide

end Operator
end Appraisal
