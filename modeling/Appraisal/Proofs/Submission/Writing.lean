import Appraisal.Proofs.Submission.Program
import Mathlib.Data.List.Forall2

/-! Texts that are written from assignments, one on each line: a key, a colon and a space, and a value. A key is a path
    of words with dots between them; a value is a numeral, a word, or a string in quotes. A line `key: value;` has the
    lexemes of the assignment (`lexes_assignment`), and lines that have the lexemes of clauses make up a text that
    has all of them (`lexes_joinLines`). -/

namespace Appraisal.Submission.Grammar
open Text Scan

/-! ### Words -/

/-- The text is a word, and no query. -/
def IsWord (name : String) : Prop := Spelling (.word name) name.toList

theorem isWord_iff {name : String} : IsWord name ↔ ∃ c cs, name.toList = c :: cs ∧ isWordStart c = true ∧
    (∀ d ∈ cs, isWordChar d = true) ∧ query? (c :: cs) = none := by
  constructor
  · intro h
    unfold IsWord at h
    generalize hcs : name.toList = cs at h
    cases h with
    | word start chars noQuery => exact ⟨_, _, rfl, start, chars, query?_eq_none noQuery⟩
  · rintro ⟨c, cs, hcs, start, chars, hquery⟩
    have h : Spelling (.word (String.ofList (c :: cs))) (c :: cs) := .word start chars fun q hq => by
      rw [query?_eq_some_iff.2 hq] at hquery
      cases hquery
    rwa [← hcs, String.ofList_toList] at h

instance : DecidablePred IsWord := fun name =>
  match h : name.toList with
  | [] => isFalse (by simp [isWord_iff, h])
  | c :: cs => decidable_of_iff (isWordStart c = true ∧ cs.all isWordChar = true ∧ query? (c :: cs) = none)
    (by simp [isWord_iff, h])

theorem isWordChar_of_isWordStart {c : Char} (h : isWordStart c = true) : isWordChar c = true := by
  simp only [isWordStart, Bool.or_eq_true, decide_eq_true_eq] at h
  rcases h with h | rfl
  · simp [isWordChar, Char.isAlphanum, h]
  · rfl

theorem IsWord.isWordChar {name : String} (h : IsWord name) : ∀ c ∈ name.toList, isWordChar c = true := by
  obtain ⟨c, cs, hname, start, chars, -⟩ := isWord_iff.1 h
  rw [hname]
  exact List.forall_mem_cons.2 ⟨isWordChar_of_isWordStart start, chars⟩

theorem IsWord.toList_ne_nil {name : String} (h : IsWord name) : name.toList ≠ [] := by
  obtain ⟨c, cs, hname, -⟩ := isWord_iff.1 h
  simp [hname]

/-! ### Keys -/

theorem key_singleton (name : String) : Path.key ⟨name, []⟩ = name := by simp [Path.key, Path.names]

theorem toList_key_cons (first second : String) (more : List String) :
    (Path.key ⟨first, second :: more⟩).toList = first.toList ++ '.' :: (Path.key ⟨second, more⟩).toList := by
  simp [Path.key, Path.names, String.toList_intercalate]

section
variable {first : String} {more : List String}

theorem lexes_key {ls : List Lexeme} {rest : List Char} (words : ∀ name ∈ first :: more, IsWord name)
    (whole : Stops isWordChar rest) (h : Lexes ls rest) :
    Lexes (Path.lexemes ⟨first, more⟩ ++ ls) ((Path.key ⟨first, more⟩).toList ++ rest) := by
  induction more generalizing first with
  | nil =>
    rw [key_singleton]
    exact .cons (.spelling (words first (by simp))) whole h
  | cons second more ih =>
    rw [toList_key_cons, List.append_assoc, List.cons_append]
    have htail := ih fun name hname => words name (List.mem_cons_of_mem _ hname)
    have hdot := Lexes.cons (.spelling (.mark .dot)) trivial htail
    exact .cons (.spelling (words first (by simp))) (stops_cons.2 rfl) hdot

theorem mem_key (words : ∀ name ∈ first :: more, IsWord name) :
    ∀ c ∈ (Path.key ⟨first, more⟩).toList, isWordChar c = true ∨ c = '.' := by
  intro c hc
  induction more generalizing first with
  | nil => exact Or.inl ((words first (by simp)).isWordChar c (by rwa [key_singleton] at hc))
  | cons second more ih =>
    rw [toList_key_cons, List.mem_append, List.mem_cons] at hc
    rcases hc with hc | rfl | hc
    · exact Or.inl ((words first (by simp)).isWordChar c hc)
    · exact Or.inr rfl
    · exact ih (fun name hname => words name (List.mem_cons_of_mem _ hname)) hc

theorem key_ne_nil (hfirst : IsWord first) : (Path.key ⟨first, more⟩).toList ≠ [] := by
  cases more with
  | nil => simpa [key_singleton] using hfirst.toList_ne_nil
  | cons second more => simp [toList_key_cons]

end

/-- A path that may stand before a separator. -/
structure Key where
  path : Path
  words : ∀ name ∈ path.names, IsWord name

namespace Key

def name (k : Key) : String := k.path.key

/-- The key and a value after it, as an assignment is written. -/
def line (k : Key) (value : List Char) : List Char := k.name.toList ++ ':' :: ' ' :: value

theorem mem_name (k : Key) : ∀ c ∈ k.name.toList, isWordChar c = true ∨ c = '.' := mem_key k.words

theorem name_ne_nil (k : Key) : k.name.toList ≠ [] := key_ne_nil (k.words _ List.mem_cons_self)

end Key

/-! ### Values -/

/-- The text in quotes, with quotes and backslashes escaped. -/
def quoted (cs : List Char) : List Char := '"' :: (cs.flatMap escapeChar ++ ['"'])

/-- The operands of one lexeme and how they are written. -/
inductive Operand.Spelled : Operand → List Char → Prop
  | number (n : Numeral.Plain) : Spelled (.number n) n.chars
  | string {s : String} (oneLine : '\n' ∉ s.toList) : Spelled (.string s) (quoted s.toList)
  | word {name : String} (h : IsWord name) : Spelled (.path ⟨name, []⟩) name.toList

theorem Operand.Spelled.exists_lexeme {x : Operand} {cs : List Char} (h : Operand.Spelled x cs) :
    ∃ l, x.lexemes = [l] ∧ Spelling l cs := by
  cases h with
  | number n => exact ⟨_, rfl, .number n⟩
  | @string s oneLine =>
    refine ⟨_, rfl, ?_⟩
    rw [← String.ofList_toList (s := s), String.toList_ofList]
    exact .string oneLine
  | word h => exact ⟨_, rfl, h⟩

/-! ### Clauses -/

/-- No lexeme goes on with a semicolon. -/
theorem whole_before_semicolon (l : Lexeme) (rest : List Char) : l.WholeBefore (';' :: rest) := by
  refine Lexeme.EndsBefore.whole ?_
  cases l with
  | mark m => trivial
  | string s => trivial
  | symbol s => exact stops_cons.2 rfl
  | word s => exact stops_cons.2 rfl
  | query q => exact stops_cons.2 rfl
  | number s => exact ⟨stops_cons.2 rfl, by simp⟩

theorem lexes_before_semicolon {l : Lexeme} {cs : List Char} (h : Spelling l cs) :
    Lexes [l, .mark .semicolon] (cs ++ [';']) := by
  have hend : Lexes [.mark .semicolon] [';'] := .cons (.spelling (.mark .semicolon)) trivial (.finish (.layout .nil))
  exact .cons (.spelling h) (whole_before_semicolon l []) hend

theorem lexes_assignment (k : Key) {x : Operand} {cs : List Char} (h : x.Spelled cs) :
    Lexes (Clause.assign k.path .colon x).lexemes (k.line (cs ++ [';'])) := by
  obtain ⟨l, hl, hspelling⟩ := h.exists_lexeme
  have hvalue : Lexes [l, .mark .semicolon] (' ' :: (cs ++ [';'])) :=
    .before (.blank (by decide) .nil) (lexes_before_semicolon hspelling)
  have hseparator := Lexes.cons (.spelling (.mark .colon)) trivial hvalue
  rw [Clause.lexemes, hl]
  exact lexes_key k.words (stops_cons.2 rfl) hseparator

theorem lexes_query (q : Query) : Lexes (Clause.query q).lexemes (q.name.toList ++ [';']) :=
  lexes_before_semicolon (.query (by cases q <;> decide))

/-! ### Lines -/

/-- The lines with a line break between any two of them, and perhaps one after the last. -/
def joinLines (ended : Bool) : List (List Char) → List Char
  | [] => []
  | [line] => line ++ if ended then ['\n'] else []
  | line :: next :: lines => line ++ '\n' :: joinLines ended (next :: lines)

/-- Every line has the lexemes of its clause. -/
abbrev LexesEach : List Clause → List (List Char) → Prop := List.Forall₂ fun c line => Lexes c.lexemes line

theorem lexesEach_map {α : Type} {clause : α → Clause} {line : α → List Char}
    (h : ∀ x, Lexes (clause x).lexemes (line x)) (xs : List α) : LexesEach (xs.map clause) (xs.map line) := by
  rw [LexesEach, List.forall₂_map_left_iff, List.forall₂_map_right_iff, List.forall₂_same]
  exact fun x _ => h x

theorem lexes_joinLines {cs : List Clause} {lines : List (List Char)} (h : LexesEach cs lines) (ended : Bool) :
    Lexes (cs.flatMap Clause.lexemes) (joinLines ended lines) := by
  induction h with
  | nil => exact .finish (.layout .nil)
  | cons hline hlines ih =>
    rw [List.flatMap_cons]
    cases hlines with
    | nil =>
      cases ended with
      | false => simpa [joinLines] using hline
      | true => exact hline.append_line (.finish (.layout .nil))
    | cons => exact hline.append_line ih

end Appraisal.Submission.Grammar
