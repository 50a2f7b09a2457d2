import Appraisal.Proofs.Submission.Writing
import Mathlib.Data.List.Basic

/-! Fields that are written as assignments and read back. Integers are written in decimal, and texts in quotes; a text
    that is in normal form and has no line break comes back as it was, and the fields stand in the order in which they
    were written (`written_read_back`). -/

namespace Appraisal.Submission.Grammar
open Numeral

/-- A value that can be written so that it is read back. -/
inductive Datum where
  | integer (n : Int) (within : (Nat.toDigits 10 n.natAbs).length ≤ digitLimit)
  | text (s : String) (oneLine : '\n' ∉ s.toList) (normal : normalize s = s)

namespace Datum

def value : Datum → Value
  | integer n _ => .number (.int n)
  | text s _ _ => .text s

/-- How a value is written. -/
def chars : Datum → List Char
  | integer n _ => Number.intText n
  | text s _ _ => quoted s.toList

def operand : Datum → Operand
  | integer n _ => .number (.ofInt n)
  | text s _ _ => .string s

theorem spelled (d : Datum) : d.operand.Spelled d.chars := by
  cases d with
  | integer n within =>
    rw [chars, ← chars_ofInt]
    exact .number (.ofInt n)
  | text s oneLine normal => exact .string oneLine

theorem value_operand (d : Datum) : d.operand.value = d.value := by
  cases d with
  | integer n within => rw [operand, Operand.value, value_ofInt, value]
  | text s oneLine normal => rw [operand, Operand.value, normal, value]

theorem within_operand (d : Datum) : d.operand.Within := by
  cases d with
  | integer n within => exact fun _ => within
  | text s oneLine normal => trivial

end Datum

/-- A key and its value, as they are written. -/
structure Field where
  key : Key
  datum : Datum

namespace Field

def entry (f : Field) : String × Value := (f.key.name, f.datum.value)

def line (f : Field) : List Char := f.key.line (f.datum.chars ++ [';'])

def clause (f : Field) : Clause := .assign f.key.path .colon f.datum.operand

theorem lexes_line (f : Field) : Lexes f.clause.lexemes f.line := lexes_assignment f.key f.datum.spelled

theorem binding?_clause {v : Vocabulary} {f : Field} (h : v.resolve f.key.name = f.key.name) :
    f.clause.binding? v = some f.entry := by
  have hkey : v.resolve f.key.path.key = f.key.name := h
  rw [clause, Clause.binding?, hkey, f.datum.value_operand, entry]

end Field

/-- The fields one on each line, and perhaps a query after them. -/
def written (ended asked : Bool) (fs : List Field) : List Char :=
  joinLines ended (fs.map Field.line ++ if asked then ["CHECK;".toList] else [])

/-- The clauses of a text that is written from fields. -/
def clausesOf (asked : Bool) (fs : List Field) : List Clause :=
  fs.map Field.clause ++ if asked then [.query .check] else []

theorem lexes_written (ended asked : Bool) (fs : List Field) :
    Lexes ((clausesOf asked fs).flatMap Clause.lexemes) (written ended asked fs) := by
  have hquery : LexesEach (if asked then [.query .check] else []) (if asked then ["CHECK;".toList] else []) := by
    cases asked with
    | false => exact .nil
    | true => exact .cons (lexes_query .check) .nil
  exact lexes_joinLines (List.rel_append (lexesEach_map Field.lexes_line fs) hquery) ended

theorem within_clausesOf (asked : Bool) (fs : List Field) : ∀ c ∈ clausesOf asked fs, c.Within := by
  refine List.forall_mem_append.2 ⟨List.forall_mem_map.2 fun f _ => f.datum.within_operand, ?_⟩
  cases asked <;> simp [Clause.Within]

theorem bindings_clausesOf {v : Vocabulary} (asked : Bool) {fs : List Field}
    (hcanonical : ∀ f ∈ fs, v.resolve f.key.name = f.key.name) :
    (clausesOf asked fs).filterMap (Clause.binding? v) = fs.map Field.entry := by
  have hquery : (if asked then [Clause.query .check] else []).filterMap (Clause.binding? v) = [] := by
    cases asked <;> rfl
  rw [clausesOf, List.filterMap_append, hquery, List.append_nil, List.filterMap_map, ← List.filterMap_eq_map]
  exact List.filterMap_congr fun f hf => Field.binding?_clause (hcanonical f hf)

/-- Fields with distinct names, which the vocabulary knows as they are, are read back from what is written: the same
    values under the same names in the same order, and a query exactly if one is written. -/
theorem written_read_back (v : Vocabulary) (ended asked : Bool) (fs : List Field)
    (hdistinct : (fs.map fun f => f.key.name).Nodup) (hcanonical : ∀ f ∈ fs, v.resolve f.key.name = f.key.name) :
    ∃ s, ofProgram v (written ended asked fs) = .ok s ∧ s.fields.entries = fs.map Field.entry ∧
      s.seenQuery = asked := by
  refine ⟨_, ofProgram_eq_ok_iff_lexes.2 ⟨_, lexes_written ended asked fs, within_clausesOf asked fs, rfl⟩, ?_, ?_⟩
  · rw [Clause.submission, bindings_clausesOf asked hcanonical]
    refine OrderedMap.entries_ofList ?_
    rwa [List.map_map]
  · rw [Clause.submission, clausesOf, List.any_append, List.any_map]
    cases asked <;> simp [Field.clause, Clause.isQuery, Function.comp_def]

/-- A path for a name, and a text with quotes, slashes, a semicolon and a backslash at its end. -/
theorem written_read_back_escaped :
    ∃ s, ofProgram .empty "A.x: -12;\nB: \"a\\\"; // \\\\\";\nCHECK;\n".toList = .ok s ∧
      s.fields.entries = [("A.x", .number (.int (-12))), ("B", .text "a\"; // \\")] ∧ s.seenQuery = true := by
  have htext : written true true
      [⟨⟨⟨"A", ["x"]⟩, by decide +kernel⟩, .integer (-12) (by decide)⟩,
        ⟨⟨⟨"B", []⟩, by decide +kernel⟩, .text "a\"; // \\" (by decide) (by decide)⟩] =
      "A.x: -12;\nB: \"a\\\"; // \\\\\";\nCHECK;\n".toList := by decide +kernel
  rw [← htext]
  exact written_read_back .empty true true _ (by decide +kernel) fun _ _ => rfl

end Appraisal.Submission.Grammar
