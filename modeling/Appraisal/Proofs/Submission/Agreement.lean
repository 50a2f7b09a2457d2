import Appraisal.Proofs.Submission.FirstSeparator
import Appraisal.Proofs.Submission.Normalize
import Appraisal.Proofs.Submission.Writing

/-! The same assignments in both notations. As a statement an assignment is written `key: value;`, with a text in quotes,
    and as a line `key: value`, with a text as it is. A text in the statement notation is put in lower case and then
    loses its backticks, and one in the line notation the other way round, which makes no difference
    (`dropBackticks_lower`). So both notations say the same, or fail by the same integer (`notations_agree`). -/

namespace Appraisal.Submission.Grammar
open Text Scan Numeral

/-! ### Texts at the end of a line -/

/-- The text can stand at the end of a line, where it begins and ends without white space. -/
structure Bare (cs : List Char) : Prop where
  filled : cs ≠ []
  oneLine : '\n' ∉ cs
  first : ∀ c ∈ cs.head?, isBlank c = false
  last : ∀ c ∈ cs.getLast?, isBlank c = false

theorem bare_iff {cs : List Char} : Bare cs ↔ cs ≠ [] ∧ '\n' ∉ cs ∧ cs.head?.all (!isBlank ·) = true ∧
    cs.getLast?.all (!isBlank ·) = true := by
  simp only [Option.all_eq_true, Bool.not_eq_true']
  constructor
  · exact fun h => ⟨h.filled, h.oneLine, h.first, h.last⟩
  · rintro ⟨filled, oneLine, first, last⟩
    exact ⟨filled, oneLine, first, last⟩

instance : DecidablePred Bare := fun _ => decidable_of_iff' _ bare_iff

theorem Bare.of_visible {cs : List Char} (filled : cs ≠ []) (h : ∀ c ∈ cs, isBlank c = false) : Bare cs where
  filled := filled
  oneLine hmem := by cases h '\n' hmem
  first c hc := h c (List.mem_of_mem_head? hc)
  last c hc := h c (List.mem_of_getLast? hc)

theorem Bare.strip_eq {cs : List Char} (h : Bare cs) : strip cs = cs := strip_eq_self h.first h.last

theorem bare_numeral (n : Plain) : Bare n.chars := by
  obtain ⟨d, ds, hw, -⟩ := n.exists_whole_cons
  refine .of_visible (by simp [Plain.chars, hw]) fun c hc => ?_
  rcases n.mem_chars hc with h | rfl | rfl
  · exact isBlank_of_isAlphanum (by simp [Char.isAlphanum, h])
  · decide
  · decide

theorem dropBackticks_numeral (n : Plain) : dropBackticks n.chars = n.chars :=
  dropBackticks_eq_self fun h => by rcases n.mem_chars h with h | h | h <;> cases h

theorem isBlank_of_isWordChar {c : Char} (h : isWordChar c = true) : isBlank c = false := by
  simp only [isWordChar, Bool.or_eq_true, decide_eq_true_eq] at h
  rcases h with (h | rfl) | rfl
  · exact isBlank_of_isAlphanum h
  · decide
  · decide

theorem IsWord.bare {name : String} (h : IsWord name) : Bare name.toList :=
  .of_visible h.toList_ne_nil fun c hc => isBlank_of_isWordChar (h.isWordChar c hc)

/-! ### Lines of a name and a value -/

section
variable {name value : List Char}

theorem bare_assignment (hname : Bare name) (hvalue : Bare value) : Bare (name ++ ':' :: ' ' :: value) where
  filled := by simp
  oneLine := by simp [hname.oneLine, hvalue.oneLine]
  first c hc := by
    obtain ⟨d, ds, rfl⟩ := List.exists_cons_of_ne_nil hname.filled
    exact hname.first c hc
  last c hc := by
    have hlast : (':' :: ' ' :: value).getLast? = value.getLast? := List.getLast?_append_of_ne_nil [':', ' '] hvalue.filled
    rw [List.getLast?_append_of_ne_nil _ (by simp), hlast] at hc
    exact hvalue.last c hc

theorem divide_assignment (hname : Bare name) (first : ∀ c ∈ name, Lines.isSeparator c = false) (hvalue : Bare value) :
    Lines.divide (name ++ ':' :: ' ' :: value) = some (name, value) := by
  have hspace : strip (' ' :: value) = value :=
    (@strip_before _ [' '] (List.forall_mem_singleton.2 rfl)).trans hvalue.strip_eq
  exact Lines.divide_eq_some_iff.2
    ⟨name, ' ' :: value, .mk hname.filled first rfl (List.cons_ne_nil _ _), hname.strip_eq, hspace⟩

theorem binding?_assignment (v : Vocabulary) (hname : Bare name) (first : ∀ c ∈ name, Lines.isSeparator c = false)
    (hvalue : Bare value) : Lines.binding? v (name ++ ':' :: ' ' :: value) =
      (Lines.value (dropBackticks value)).map fun x => some (v.resolve (String.ofList name), x) := by
  rw [Lines.binding?, (bare_assignment hname hvalue).strip_eq, divide_assignment hname first hvalue]

end

namespace Key
variable (k : Key)

theorem bare : Bare k.name.toList := by
  refine .of_visible k.name_ne_nil fun c hc => ?_
  rcases k.mem_name c hc with h | rfl
  · exact isBlank_of_isWordChar h
  · decide

/-- No colon and no equals sign stands in a key. -/
theorem not_separator : ∀ c ∈ k.name.toList, Lines.isSeparator c = false := by
  intro c hc
  rcases k.mem_name c hc with h | rfl
  · simp [Lines.isSeparator, ne_of_class h (d := ':') rfl, ne_of_class h (d := '=') rfl]
  · decide

variable {value : List Char}

theorem bare_line (h : Bare value) : Bare (k.line value) := bare_assignment k.bare h

theorem divide_line (h : Bare value) : Lines.divide (k.line value) = some (k.name.toList, value) :=
  divide_assignment k.bare k.not_separator h

theorem binding?_line (v : Vocabulary) (h : Bare value) : Lines.binding? v (k.line value) =
    (Lines.value (dropBackticks value)).map fun x => some (v.resolve k.name, x) := by
  rw [line, binding?_assignment v k.bare k.not_separator h, String.ofList_toList]

end Key

/-! ### Cells -/

/-- A value that both notations can write: a numeral, a word, or a text that is no numeral without its backticks. -/
inductive Cell where
  | number (n : Plain)
  | word (name : String) (h : IsWord name)
  | text (cs : List Char) (bare : Bare cs) (noNumeral : ∀ n : Plain, n.chars ≠ dropBackticks cs)

namespace Cell

/-- How a value is written in a line. -/
def chars : Cell → List Char
  | number n => n.chars
  | word name _ => name.toList
  | text cs _ _ => cs

/-- How a value is written in a statement. -/
def spelling : Cell → List Char
  | number n => n.chars
  | word name _ => name.toList
  | text cs _ _ => quoted cs

def operand : Cell → Operand
  | number n => .number n
  | word name _ => .path ⟨name, []⟩
  | text cs _ _ => .string (String.ofList cs)

theorem spelled (x : Cell) : x.operand.Spelled x.spelling := by
  cases x with
  | number n => exact .number n
  | word name h => exact .word h
  | text cs bare noNumeral =>
    have hstring : Operand.Spelled (.string (String.ofList cs)) (quoted (String.ofList cs).toList) :=
      .string (by simpa using bare.oneLine)
    rwa [String.toList_ofList] at hstring

theorem bare (x : Cell) : Bare x.chars := by
  cases x with
  | number n => exact bare_numeral n
  | word name h => exact h.bare
  | text cs bare noNumeral => exact bare

end Cell

/-- What the line notation makes of a text that is no numeral without its backticks. -/
theorem value_dropBackticks {cs : List Char} (h : ∀ n : Plain, n.chars ≠ dropBackticks cs) :
    Lines.value (dropBackticks cs) = .ok (.text (normalize (String.ofList cs))) := by
  have hnumeral : isNumeral (dropBackticks cs) = false := by
    rw [Bool.eq_false_iff]
    intro hnumeral
    obtain ⟨n, hn⟩ := isNumeral_iff.1 hnumeral
    exact h n hn
  simp [Lines.value, hnumeral, normalize, dropBackticks_lower]

theorem value_chars (x : Cell) (p : Path) : Lines.value (dropBackticks x.chars) =
    (Clause.assign p .colon x.operand).fault?.elim (.ok x.operand.value) .error := by
  cases x with
  | number n =>
    simp only [Cell.chars, Cell.operand, dropBackticks_numeral, Lines.value, isNumeral_chars, if_true,
      read_chars, Clause.fault?, Operand.value]
    split <;> rfl
  | word name h =>
    have hbacktick : '\x60' ∉ name.toList := fun hmem => by cases h.isWordChar _ hmem
    have hvalue : Lines.value (dropBackticks name.toList) = .ok (.text (normalize (String.ofList name.toList))) := by
      -- No word begins as a numeral does.
      refine value_dropBackticks fun n hn => ?_
      obtain ⟨d, ds, hd, hnumber⟩ := exists_numberStart n
      obtain ⟨c, cs, hname, hstart, -⟩ := isWord_iff.1 h
      rw [dropBackticks_eq_self hbacktick, hname, hd, List.cons.injEq] at hn
      rw [hn.1, isNumberStart_eq_false hstart] at hnumber
      cases hnumber
    rw [Cell.chars, hvalue, String.ofList_toList]
    rfl
  | text cs bare noNumeral => exact value_dropBackticks noNumeral

/-! ### Rows -/

/-- An assignment that both notations can write. -/
structure Row where
  key : Key
  cell : Cell

namespace Row
variable (r : Row)

def statement : List Char := r.key.line (r.cell.spelling ++ [';'])

def line : List Char := r.key.line r.cell.chars

def clause : Clause := .assign r.key.path .colon r.cell.operand

theorem lexes_statement : Lexes r.clause.lexemes r.statement := lexes_assignment r.key r.cell.spelled

/-- A line binds what its clause binds, or fails by the same integer. -/
theorem binding?_line (v : Vocabulary) :
    Lines.binding? v r.line = r.clause.fault?.elim (.ok (r.clause.binding? v)) .error := by
  rw [line, r.key.binding?_line v r.cell.bare, value_chars r.cell r.key.path, clause]
  cases (Clause.assign r.key.path .colon r.cell.operand).fault? <;> rfl

end Row

/-! ### Both notations -/

theorem bindings_joinLines (v : Vocabulary) (ended : Bool) {lines : List (List Char)}
    (h : ∀ line ∈ lines, '\n' ∉ line) :
    Lines.bindings v (Lines.split (joinLines ended lines)) = Lines.bindings v lines := by
  fun_induction joinLines ended lines with
  | case1 => rfl
  | case2 line =>
    have hline := Lines.split_of_oneLine (h line (by simp))
    cases ended with
    | false => simp [hline]
    | true =>
      rw [if_pos rfl, Lines.bindings_append_line, hline]
      rfl
  | case3 line next lines ih =>
    rw [Lines.bindings_append_line, Lines.split_of_oneLine (h line (by simp)), List.singleton_append, Lines.bindings,
      ih fun l hl => h l (List.mem_cons_of_mem _ hl), ← Lines.bindings]

/-- Lines bind what their clauses bind, or fail by the first integer that cannot be read. -/
theorem bindings_lines (v : Vocabulary) (rows : List Row) : Lines.bindings v (rows.map Row.line) =
    ((rows.map Row.clause).findSome? Clause.fault?).elim
      (.ok ((rows.map Row.clause).filterMap (Clause.binding? v))) .error := by
  induction rows with
  | nil => rfl
  | cons r rows ih =>
    rw [List.map_cons, Lines.bindings, r.binding?_line, ih, List.map_cons, List.findSome?_cons, List.filterMap_cons]
    cases hf : r.clause.fault? with
    | some f => rfl
    | none => cases (rows.map Row.clause).findSome? Clause.fault? <;> rfl

theorem ofProgram_rows (v : Vocabulary) (ended : Bool) (rows : List Row) :
    ofProgram v (joinLines ended (rows.map Row.statement)) = ((rows.map Row.clause).findSome? Clause.fault?).elim
      (.ok (Clause.submission v (rows.map Row.clause))) fun f => .error (.numeral f) :=
  ofProgram_of_lexes (lexes_joinLines (lexesEach_map Row.lexes_statement rows) ended)

theorem ofLines_rows (v : Vocabulary) (ended : Bool) (rows : List Row) :
    ofLines v (joinLines ended (rows.map Row.line)) = ((rows.map Row.clause).findSome? Clause.fault?).elim
      (.ok ⟨.lines, .ofList ((rows.map Row.clause).filterMap (Clause.binding? v)), false⟩)
      fun f => .error (.numeral f) := by
  have hlines : ∀ line ∈ rows.map Row.line, '\n' ∉ line :=
    List.forall_mem_map.2 fun r _ => (r.key.bare_line r.cell.bare).oneLine
  rw [Lines.ofLines_eq_bindings, bindings_joinLines v ended hlines, bindings_lines]
  cases (rows.map Row.clause).findSome? Clause.fault? <;> rfl

/-- Written as statements or as lines, assignments give the same fields in the same order, or fail by the same integer
    with too many digits; and it makes no difference whether a text loses its backticks before or after it is put in
    lower case. -/
theorem notations_agree (v : Vocabulary) (ended : Bool) (rows : List Row) :
    (ofProgram v (joinLines ended (rows.map Row.statement))).map Submission.fields =
      (ofLines v (joinLines ended (rows.map Row.line))).map Submission.fields ∧
    (∀ f, ofProgram v (joinLines ended (rows.map Row.statement)) = .error f →
      ∃ e, f = .numeral (.tooManyDigits e)) ∧
    ∀ cs, dropBackticks (Case.lower cs) = Case.lower (dropBackticks cs) := by
  rw [ofProgram_rows, ofLines_rows]
  refine ⟨?_, ?_, dropBackticks_lower⟩
  · cases (rows.map Row.clause).findSome? Clause.fault? <;> rfl
  · intro f hf
    cases hfault : (rows.map Row.clause).findSome? Clause.fault? with
    | none =>
      rw [hfault] at hf
      cases hf
    | some fault =>
      rw [hfault] at hf
      cases hf
      obtain ⟨c, -, hc⟩ := List.exists_of_findSome?_eq_some hfault
      obtain ⟨-, -, n, -, -, rfl⟩ := exists_of_fault? hc
      exact ⟨_, rfl⟩

/-- A path, a number with a point, a word, and a text that ends with a capital sigma and a backtick. -/
theorem notations_agree_sigma : ∃ rows : List Row,
    joinLines false (rows.map Row.statement) = "A.b: -1.50;\nC: Yes;\nD: \"`x\\\": ΑΣ`\";".toList ∧
    joinLines false (rows.map Row.line) = "A.b: -1.50\nC: Yes\nD: `x\": ΑΣ`".toList ∧
    (ofProgram .empty (joinLines false (rows.map Row.statement))).map Submission.fields =
      (ofLines .empty (joinLines false (rows.map Row.line))).map Submission.fields :=
  ⟨[⟨⟨⟨"A", ["b"]⟩, by decide +kernel⟩, .number ⟨true, ['1'], some ['5', '0'], by simp, by simp, by simp, by simp⟩⟩,
      ⟨⟨⟨"C", []⟩, by decide +kernel⟩, .word "Yes" (by decide +kernel)⟩,
      ⟨⟨⟨"D", []⟩, by decide +kernel⟩, .text "`x\": ΑΣ`".toList (by decide +kernel)
        fun n hn => absurd (isNumeral_iff.2 ⟨n, hn⟩) (by decide +kernel)⟩],
    by decide +kernel, by decide +kernel, (notations_agree .empty false _).1⟩

end Appraisal.Submission.Grammar
