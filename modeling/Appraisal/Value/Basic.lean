import Appraisal.Number.Basic
import Appraisal.OrderedMap
import Appraisal.Text.Quoted

/-! Values: what fields hold, what rules compare with, and what ruleset documents are made of. The plain text of a value
    is what it is shown as: a text is itself, and stands in quotes inside a list or a mapping. -/

namespace Appraisal

/-- A dynamic value. The entries of a mapping keep their order. -/
inductive Value where
  | null
  | bool (b : Bool)
  | number (n : Number)
  | text (s : String)
  | list (items : List Value)
  | map (entries : List (String × Value))
  deriving Repr, Inhabited

namespace Value

def int (n : Int) : Value := .number (.int n)

def texts (ss : List String) : Value := .list (ss.map .text)

/-- A text, or `null` if there is none. -/
def textOr (s : Option String) : Value := s.elim .null .text

/-- The value is one of those that count as absent: `null`, false, zero, and what is empty. -/
def isBlank : Value → Bool
  | .null => true
  | .bool b => !b
  | .number n => n.isZero
  | .text s => s == ""
  | .list items => items.isEmpty
  | .map entries => entries.isEmpty

/-- The value is a number; truth values are none. -/
def isNumber : Value → Bool
  | .number _ => true
  | _ => false

/-- The value under a key, if this is a mapping that has the key. -/
def field? : Value → String → Option Value
  | .map entries, key => Entries.get? key entries
  | _, _ => none

/-! ### Plain text -/

/-- Texts with a comma and a space between them. -/
def commaSeparated : List (List Char) → List Char
  | [] => []
  | [x] => x
  | x :: xs => x ++ ',' :: ' ' :: commaSeparated xs

mutual

/-- A value as it is shown inside another. -/
def shown : Value → List Char
  | .null => "None".toList
  | .bool b => if b then "True".toList else "False".toList
  | .number n => n.text
  | .text s => Text.Quoted.quote s.toList
  | .list items => '[' :: commaSeparated (shownItems items) ++ [']']
  | .map entries => '\x7b' :: commaSeparated (shownEntries entries) ++ ['\x7d']

def shownItems : List Value → List (List Char)
  | [] => []
  | v :: rest => shown v :: shownItems rest

def shownEntries : List (String × Value) → List (List Char)
  | [] => []
  | (key, v) :: rest => (Text.Quoted.quote key.toList ++ ':' :: ' ' :: shown v) :: shownEntries rest

end

def display : Value → String
  | .text s => s
  | v => String.ofList v.shown

@[simp] theorem display_text (s : String) : (Value.text s).display = s := rfl

end Value
end Appraisal
