import Appraisal.Proofs.Submission.Scan
import Appraisal.Submission.Basic

/-! The grammar of the statement notation, on the kinds of tokens:

    - program: any number of statements;
    - statement: path, colon or equals sign, value, semicolon; or CHECK or EVAL, semicolon;
    - value: number, string, symbol or path;
    - path: word, and any number of times dot, word.

    A clause is a statement with the lexemes that it is written with. The kinds of some lexemes are derivable
    exactly if the lexemes are those of clauses (`isProgram_iff`). -/

namespace Appraisal.Submission.Grammar
open Scan Numeral

/-! ### Derivable kinds -/

inductive IsPathTail : List Kind → Prop
  | nil : IsPathTail []
  | cons {ks : List Kind} (more : IsPathTail ks) : IsPathTail (.dot :: .word :: ks)

inductive IsPath : List Kind → Prop
  | path {ks : List Kind} (tail : IsPathTail ks) : IsPath (.word :: ks)

inductive IsValue : List Kind → Prop
  | number : IsValue [.number]
  | string : IsValue [.string]
  | symbol : IsValue [.symbol]
  | path {ks : List Kind} (h : IsPath ks) : IsValue ks

inductive IsStatement : List Kind → Prop
  | assignment {path value : List Kind} {separator : Kind} (hp : IsPath path)
      (hs : separator = .colon ∨ separator = .equal) (hv : IsValue value) :
      IsStatement (path ++ separator :: (value ++ [.semicolon]))
  | query {k : Kind} (hk : k = .check ∨ k = .eval) : IsStatement [k, .semicolon]

inductive IsProgram : List Kind → Prop
  | nil : IsProgram []
  | cons {s ks : List Kind} (first : IsStatement s) (more : IsProgram ks) : IsProgram (s ++ ks)

/-! ### Clauses -/

/-- A path: its words, at least one. -/
structure Path where
  first : String
  more : List String

namespace Path

def names (p : Path) : List String := p.first :: p.more

/-- The words with dots between them. -/
def key (p : Path) : String := ".".intercalate p.names

def last (p : Path) : String := p.more.getLastD p.first

def tailLexemes (more : List String) : List Lexeme := more.flatMap fun name => [.mark .dot, .word name]

def lexemes (p : Path) : List Lexeme := .word p.first :: tailLexemes p.more

end Path

/-- A value as it is written. -/
inductive Operand where
  | number (n : Plain)
  | string (s : String)
  | symbol (s : String)
  | path (p : Path)

namespace Operand

def lexemes : Operand → List Lexeme
  | number n => [.number (String.ofList n.chars)]
  | string s => [.string s]
  | symbol s => [.symbol s]
  | path p => p.lexemes

/-- The value that an operand gives a field: a number, or a text in lower case and without backticks. A path counts
    as its last word. -/
def value : Operand → Value
  | number n => .number n.value
  | string s | symbol s => .text (normalize s)
  | path p => .text (normalize p.last)

def literal : Operand → Literal
  | number n => .number n.value
  | string s | symbol s => .text s
  | path p => .text p.last

/-- A number has few enough digits to be read. -/
def Within : Operand → Prop
  | number n => n.Within
  | _ => True

theorem value_literal (x : Operand) : x.literal.value = x.value := by
  cases x <;> rfl

end Operand

inductive Separator where
  | colon
  | equal

def Separator.mark : Separator → Mark
  | colon => .colon
  | equal => .equal

/-- A statement as it is written. -/
inductive Clause where
  | assign (path : Path) (separator : Separator) (operand : Operand)
  | query (q : Query)

namespace Clause

def lexemes : Clause → List Lexeme
  | assign p s x => p.lexemes ++ .mark s.mark :: (x.lexemes ++ [.mark .semicolon])
  | query q => [.query q, .mark .semicolon]

def statement : Clause → Statement
  | assign p _ x => .assign p.names x.literal
  | query q => .query q

def Within : Clause → Prop
  | assign _ _ x => x.Within
  | query _ => True

/-- The binding that an assignment makes: the canonical name of its path, and its value. -/
def binding? (v : Vocabulary) : Clause → Option (String × Value)
  | assign p _ x => some (v.resolve p.key, x.value)
  | query _ => none

end Clause

/-! ### Clauses derive the grammar -/

theorem isPathTail_tailLexemes (more : List String) : IsPathTail ((Path.tailLexemes more).map Lexeme.kind) := by
  induction more with
  | nil => exact .nil
  | cons name more ih => exact .cons ih

theorem isPath_lexemes (p : Path) : IsPath (p.lexemes.map Lexeme.kind) := .path (isPathTail_tailLexemes p.more)

theorem isValue_lexemes (x : Operand) : IsValue (x.lexemes.map Lexeme.kind) := by
  cases x with
  | number n => exact .number
  | string s => exact .string
  | symbol s => exact .symbol
  | path p => exact .path (isPath_lexemes p)

theorem isStatement_lexemes (c : Clause) : IsStatement (c.lexemes.map Lexeme.kind) := by
  cases c with
  | assign p s x =>
    have hs : (Lexeme.mark s.mark).kind = .colon ∨ (Lexeme.mark s.mark).kind = .equal := by
      cases s <;> simp [Separator.mark, Lexeme.kind]
    have h := IsStatement.assignment (isPath_lexemes p) hs (isValue_lexemes x)
    rw [Clause.lexemes, List.map_append, List.map_cons, List.map_append]
    exact h
  | query q => exact .query (k := (Lexeme.query q).kind) (by cases q <;> simp [Lexeme.kind])

theorem isProgram_lexemes (cs : List Clause) : IsProgram ((cs.flatMap Clause.lexemes).map Lexeme.kind) := by
  induction cs with
  | nil => exact .nil
  | cons c cs ih =>
    rw [List.flatMap_cons, List.map_append]
    exact .cons (isStatement_lexemes c) ih

/-! ### Derivable kinds are those of clauses -/

/-- The lexeme is one of the kind. -/
def Admits : Kind → Lexeme → Prop
  | .colon, l => l = .mark .colon
  | .equal, l => l = .mark .equal
  | .semicolon, l => l = .mark .semicolon
  | .dot, l => l = .mark .dot
  | .string, l => ∃ s, l = .string s
  | .symbol, l => ∃ s, l = .symbol s
  | .number, l => ∃ s, l = .number s
  | .word, l => ∃ s, l = .word s
  | .check, l => l = .query .check
  | .eval, l => l = .query .eval
  | .finish, _ => False

theorem admits_kind (l : Lexeme) : Admits l.kind l := by
  cases l with
  | mark m => cases m <;> rfl
  | query q => cases q <;> rfl
  | string s => exact ⟨s, rfl⟩
  | symbol s => exact ⟨s, rfl⟩
  | number s => exact ⟨s, rfl⟩
  | word s => exact ⟨s, rfl⟩

/-- Lexemes whose kinds begin with `k` begin with a lexeme of that kind. -/
theorem exists_cons_of_kinds {ls : List Lexeme} {k : Kind} {ks : List Kind} (h : ls.map Lexeme.kind = k :: ks) :
    ∃ l ls', ls = l :: ls' ∧ Admits k l ∧ ls'.map Lexeme.kind = ks := by
  obtain ⟨l, ls', rfl, rfl, hks⟩ := List.map_eq_cons_iff.1 h
  exact ⟨l, ls', rfl, admits_kind l, hks⟩

theorem exists_of_isPathTail {ks : List Kind} (h : IsPathTail ks) {ls : List Lexeme} (hl : ls.map Lexeme.kind = ks) :
    ∃ more, ls = Path.tailLexemes more := by
  induction h generalizing ls with
  | nil => exact ⟨[], List.map_eq_nil_iff.1 hl⟩
  | cons _ ih =>
    obtain ⟨_, ls₁, rfl, rfl, h₁⟩ := exists_cons_of_kinds hl
    obtain ⟨_, ls₂, rfl, ⟨name, rfl⟩, h₂⟩ := exists_cons_of_kinds h₁
    obtain ⟨more, rfl⟩ := ih h₂
    exact ⟨name :: more, rfl⟩

theorem exists_of_isPath {ks : List Kind} (h : IsPath ks) {ls : List Lexeme} (hl : ls.map Lexeme.kind = ks) :
    ∃ p : Path, ls = p.lexemes := by
  cases h with
  | path tail =>
    obtain ⟨_, ls₁, rfl, ⟨name, rfl⟩, h₁⟩ := exists_cons_of_kinds hl
    obtain ⟨more, rfl⟩ := exists_of_isPathTail tail h₁
    exact ⟨⟨name, more⟩, rfl⟩

theorem exists_of_isValue {ks : List Kind} (h : IsValue ks) {ls : List Lexeme} (hl : ls.map Lexeme.kind = ks)
    (hplain : ∀ l ∈ ls, PlainNumber l) : ∃ x : Operand, ls = x.lexemes := by
  cases h with
  | number =>
    obtain ⟨_, ls₁, rfl, ⟨numeral, rfl⟩, h₁⟩ := exists_cons_of_kinds hl
    obtain ⟨n, hn⟩ := hplain _ (by simp) numeral rfl
    exact ⟨.number n, by simp [Operand.lexemes, hn, List.map_eq_nil_iff.1 h₁]⟩
  | string =>
    obtain ⟨_, ls₁, rfl, ⟨s, rfl⟩, h₁⟩ := exists_cons_of_kinds hl
    exact ⟨.string s, by rw [List.map_eq_nil_iff.1 h₁, Operand.lexemes]⟩
  | symbol =>
    obtain ⟨_, ls₁, rfl, ⟨s, rfl⟩, h₁⟩ := exists_cons_of_kinds hl
    exact ⟨.symbol s, by rw [List.map_eq_nil_iff.1 h₁, Operand.lexemes]⟩
  | path hp =>
    obtain ⟨p, rfl⟩ := exists_of_isPath hp hl
    exact ⟨.path p, rfl⟩

theorem exists_of_isStatement {ks : List Kind} (h : IsStatement ks) {ls : List Lexeme} (hl : ls.map Lexeme.kind = ks)
    (hplain : ∀ l ∈ ls, PlainNumber l) : ∃ c : Clause, ls = c.lexemes := by
  cases h with
  | assignment hp hs hv =>
    obtain ⟨ls₁, _, rfl, hpath, h₁⟩ := List.map_eq_append_iff.1 hl
    obtain ⟨sep, _, rfl, hsep, h₂⟩ := exists_cons_of_kinds h₁
    obtain ⟨ls₂, _, rfl, hvalue, h₃⟩ := List.map_eq_append_iff.1 h₂
    obtain ⟨_, _, rfl, rfl, h₄⟩ := exists_cons_of_kinds h₃
    obtain rfl := List.map_eq_nil_iff.1 h₄
    obtain ⟨p, rfl⟩ := exists_of_isPath hp hpath
    obtain ⟨x, rfl⟩ := exists_of_isValue hv hvalue fun l h => hplain l (by simp [h])
    rcases hs with rfl | rfl
    · obtain rfl : sep = .mark .colon := hsep
      exact ⟨.assign p .colon x, rfl⟩
    · obtain rfl : sep = .mark .equal := hsep
      exact ⟨.assign p .equal x, rfl⟩
  | query hk =>
    obtain ⟨word, _, rfl, hword, h₁⟩ := exists_cons_of_kinds hl
    obtain ⟨_, _, rfl, rfl, h₂⟩ := exists_cons_of_kinds h₁
    obtain rfl := List.map_eq_nil_iff.1 h₂
    rcases hk with rfl | rfl
    · obtain rfl : word = .query .check := hword
      exact ⟨.query .check, rfl⟩
    · obtain rfl : word = .query .eval := hword
      exact ⟨.query .eval, rfl⟩

/-- The kinds of lexemes are those of a program exactly if the lexemes are those of clauses. -/
theorem isProgram_iff {ls : List Lexeme} (hplain : ∀ l ∈ ls, PlainNumber l) :
    IsProgram (ls.map Lexeme.kind) ↔ ∃ cs : List Clause, ls = cs.flatMap Clause.lexemes := by
  constructor
  · intro h
    generalize hk : ls.map Lexeme.kind = ks at h
    induction h generalizing ls with
    | nil => exact ⟨[], List.map_eq_nil_iff.1 hk⟩
    | cons first _ ih =>
      obtain ⟨l₁, l₂, rfl, h₁, h₂⟩ := List.map_eq_append_iff.1 hk
      obtain ⟨c, rfl⟩ := exists_of_isStatement first h₁ fun l h => hplain l (List.mem_append_left _ h)
      obtain ⟨cs, rfl⟩ := ih (fun l h => hplain l (List.mem_append_right _ h)) h₂
      exact ⟨c :: cs, rfl⟩
  · rintro ⟨cs, rfl⟩
    exact isProgram_lexemes cs

end Appraisal.Submission.Grammar
