import Appraisal.Text.Hex
import Appraisal.Value.Basic

/-! The canonical text of a value: compact, with the keys of every mapping in ascending order by code point.
    Values that differ in the order of keys only have the same text. -/

namespace Appraisal.Value

def escapeChar (c : Char) : List Char :=
  if c = '"' then ['\\', '"']
  else if c = '\\' then ['\\', '\\']
  else if c = '\n' then ['\\', 'n']
  else if c = '\r' then ['\\', 'r']
  else if c = '\t' then ['\\', 't']
  else if c = '\x0c' then ['\\', 'f']
  else if c = '\x08' then ['\\', 'b']
  else if c.toNat < 0x20 then '\\' :: 'u' :: Text.hex 4 c.toNat
  else [c]

def quoted (s : String) : List Char := '"' :: s.toList.flatMap escapeChar ++ ['"']

/-- The canonical text of a number. The values that are no number or not finite have names. -/
def numberText : Number → List Char
  | .real (.infinite negative) => if negative then "-Infinity".toList else "Infinity".toList
  | .real .nan => "NaN".toList
  | n => n.text

/-- Entries in ascending order of their keys. -/
def sortEntries {α : Type} (es : List (String × α)) : List (String × α) := es.mergeSort fun a b => a.1 ≤ b.1

def joined : List (List Char) → List Char
  | [] => []
  | [x] => x
  | x :: xs => x ++ ',' :: joined xs

/-- A key and the canonical text of its value. -/
def member (e : String × List Char) : List Char := quoted e.1 ++ ':' :: e.2

mutual

def canonical : Value → List Char
  | .null => "null".toList
  | .bool b => if b then "true".toList else "false".toList
  | .number n => numberText n
  | .text s => quoted s
  | .list items => '[' :: joined (canonicalItems items) ++ [']']
  | .map entries => '\x7b' :: joined ((sortEntries (canonicalEntries entries)).map member) ++ ['\x7d']

/-- The items of a list, each in canonical text. -/
def canonicalItems : List Value → List (List Char)
  | [] => []
  | v :: rest => canonical v :: canonicalItems rest

/-- The entries of a mapping in their own order, each value in canonical text. -/
def canonicalEntries : List (String × Value) → List (String × List Char)
  | [] => []
  | (key, v) :: rest => (key, canonical v) :: canonicalEntries rest

end

end Appraisal.Value
