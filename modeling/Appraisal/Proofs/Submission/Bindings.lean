import Appraisal.Proofs.Submission.Dialect
import Appraisal.Proofs.Submission.Lines
import Appraisal.Proofs.Submission.Place
import Appraisal.Proofs.Submission.Program

/-! What a text binds: the names as they are written, with their values, from left to right. No vocabulary has a part in
    it. Reading the text gives the bindings their canonical names and puts them one after another (`read_fields`). A
    program with a statement is in the statement notation (`detect_of_program`). -/

namespace Appraisal

/-- A binding under the canonical name. -/
def Vocabulary.rename (v : Vocabulary) (e : String × Value) : String × Value := (v.resolve e.1, e.2)

namespace Submission

/-- The binding that a statement makes, if it is an assignment. -/
def Statement.binding? : Statement → Option (String × Value)
  | .assign path value => some (".".intercalate path, value.value)
  | .query _ => none

/-- The bindings of a text in the notation that it selects. -/
def bindings (text : List Char) : Except Fault (List (String × Value)) :=
  match Dialect.detect text with
  | .statements => (Program.read text).map (·.filterMap Statement.binding?)
  | .lines =>
    match Lines.bindings .empty (Lines.split text) with
    | .ok es => .ok es
    | .error f => .error (.numeral f)

variable {v : Vocabulary} {text : List Char}

/-! ### Programs -/

theorem Program.fields_eq_bindings (v : Vocabulary) (ss : List Statement) :
    Program.fields v ss = .ofList ((ss.filterMap Statement.binding?).map v.rename) := by
  rw [Program.fields, OrderedMap.ofList, List.foldl_map, List.foldl_filterMap]
  congr 1
  funext fields s
  cases s <;> rfl

theorem detect_of_program {ss : List Statement} (h : Program.read text = .ok ss) (hne : ss ≠ []) :
    Dialect.detect text = .statements := by
  obtain ⟨cs, hlexes, -, rfl⟩ := Grammar.read_eq_ok_iff_lexes.1 h
  have hsemicolon : ∀ c : Grammar.Clause, Lexeme.mark .semicolon ∈ c.lexemes := fun c => by
    cases c <;> simp [Grammar.Clause.lexemes]
  obtain ⟨c, hc⟩ := List.exists_mem_of_ne_nil cs (by rintro rfl; exact hne rfl)
  obtain ⟨span, hwritten, hspan⟩ := hlexes.exists_written (List.mem_flatMap.2 ⟨c, hc, hsemicolon c⟩)
  have hmem : ';' ∈ text := by
    cases hwritten with
    | spelling h =>
      cases h
      exact hspan.subset List.mem_cons_self
  rw [Dialect.detect_eq_statements_iff, Dialect.selects, List.contains_iff_mem.2 hmem]
  rfl

theorem read_of_statements (h : Dialect.detect text = .statements) : read v text = ofProgram v text := by
  rw [read, h]

theorem read_of_program (v : Vocabulary) {ss : List Statement} (h : Program.read text = .ok ss) (hne : ss ≠ []) :
    read v text = .ok ⟨.statements, Program.fields v ss, Program.hasQuery ss⟩ := by
  rw [read_of_statements (detect_of_program h hne)]
  exact Outcome.map_eq_ok_iff.2 ⟨ss, h, rfl⟩

theorem bindings_of_program {ss : List Statement} (h : Program.read text = .ok ss) (hne : ss ≠ []) :
    bindings text = .ok (ss.filterMap Statement.binding?) := by
  rw [bindings, detect_of_program h hne]
  exact Outcome.map_eq_ok_iff.2 ⟨ss, h, rfl⟩

/-! ### Lines -/

theorem Lines.binding?_eq_rename (v : Vocabulary) (line : List Char) :
    Lines.binding? v line = (Lines.binding? .empty line).map (·.map v.rename) := by
  unfold Lines.binding?
  cases Lines.divide (Text.strip line) with
  | none => rfl
  | some p =>
    dsimp only
    cases Lines.value (dropBackticks p.2) <;> rfl

theorem Lines.bindings_eq_rename (v : Vocabulary) (lines : List (List Char)) :
    Lines.bindings v lines = (Lines.bindings .empty lines).map (·.map v.rename) := by
  induction lines with
  | nil => rfl
  | cons line lines ih =>
    rw [Lines.bindings, Lines.bindings, Lines.binding?_eq_rename, ih]
    cases Lines.binding? .empty line with
    | error f => rfl
    | ok e =>
      cases Lines.bindings .empty lines with
      | error f => rfl
      | ok es => cases e <;> rfl

/-! ### Reading a text -/

/-- Reading a text resolves the names that it binds, and puts one binding after another. -/
theorem read_fields (v : Vocabulary) (text : List Char) :
    (read v text).map (·.fields) = (bindings text).map fun es => .ofList (es.map v.rename) := by
  unfold read bindings
  cases Dialect.detect text with
  | statements =>
    dsimp only
    rw [ofProgram]
    cases Program.read text with
    | error f => rfl
    | ok ss => exact congrArg Except.ok (Program.fields_eq_bindings v ss)
  | lines =>
    dsimp only
    rw [Lines.ofLines_eq_bindings, Lines.bindings_eq_rename]
    cases Lines.bindings .empty (Lines.split text) <;> rfl

theorem exists_bindings_of_read {s : Submission} (h : read v text = .ok s) :
    ∃ es, bindings text = .ok es ∧ s.fields = .ofList (es.map v.rename) := by
  have hfields := read_fields v text
  rw [h] at hfields
  obtain ⟨es, hes, he⟩ := Outcome.map_eq_ok_iff.1 hfields.symm
  exact ⟨es, hes, he.symm⟩

theorem exists_of_bindings (v : Vocabulary) {es : List (String × Value)} (h : bindings text = .ok es) :
    ∃ s, read v text = .ok s ∧ s.fields = .ofList (es.map v.rename) := by
  have hfields := read_fields v text
  rw [h] at hfields
  exact Outcome.map_eq_ok_iff.1 hfields

end Submission
end Appraisal
