import Appraisal.Number.Numeral
import Appraisal.Submission.Fault

/-! Statements: assignments `path : value ;` (or with `=`) and queries `CHECK ;` or `EVAL ;`. A path is a series of
    words with dots between them; a value is a number, a string, a symbol or a path, which stands for its last
    word. Main facts: a statement takes at least one token (`length_of_statement`), and reading stops at the
    first token that does not fit, with the statements before it. -/

namespace Appraisal.Submission

inductive Literal where
  | number (n : Number)
  | text (s : String)
  deriving DecidableEq, Repr

inductive Statement where
  | assign (path : List String) (value : Literal)
  | query (q : Query)
  deriving DecidableEq, Repr

namespace Statement

/-- Why reading stops. A grammar fault is about the first of `rest`, or about the end if there is none. -/
inductive Obstacle where
  | grammar (f : GrammarFault) (rest : List Token)
  | numeral (f : Numeral.Fault)
  deriving DecidableEq, Repr

/-- A part that was read and the tokens after it. -/
abbrev Part (α : Type) := Except Obstacle (α × List Token)

/-- The words of a path after the first. -/
def pathTail : List Token → Except Obstacle (List String × List Token)
  | ⟨.mark .dot, _⟩ :: ⟨.word name, _⟩ :: ts => (pathTail ts).map fun p => (name :: p.1, p.2)
  | ⟨.mark .dot, _⟩ :: ts => .error (.grammar (.expected .word (headKind ts)) ts)
  | ts => .ok ([], ts)

/-- The tokens after a colon or an equals sign. -/
def afterSeparator : List Token → Except Obstacle (List Token)
  | ⟨.mark .colon, _⟩ :: ts | ⟨.mark .equal, _⟩ :: ts => .ok ts
  | ts => .error (.grammar .expectedSeparator ts)

def afterSemicolon : List Token → Except Obstacle (List Token)
  | ⟨.mark .semicolon, _⟩ :: ts => .ok ts
  | ts => .error (.grammar (.expected .semicolon (headKind ts)) ts)

/-- The value at the head of the tokens. -/
def literal : List Token → Except Obstacle (Literal × List Token)
  | ⟨.number numeral, _⟩ :: ts =>
    match Numeral.read numeral.toList with
    | .ok n => .ok (.number n, ts)
    | .error f => .error (.numeral f)
  | ⟨.string s, _⟩ :: ts | ⟨.symbol s, _⟩ :: ts => .ok (.text s, ts)
  | ⟨.word name, _⟩ :: ts => (pathTail ts).map fun p => (.text (p.1.getLastD name), p.2)
  | ts => .error (.grammar .expectedValue ts)

/-- The rest of an assignment after the first word of its path. -/
def assignment (name : String) (ts : List Token) : Except Obstacle (Statement × List Token) := do
  let (names, ts) ← pathTail ts
  let ts ← afterSeparator ts
  let (value, ts) ← literal ts
  let ts ← afterSemicolon ts
  return (.assign (name :: names) value, ts)

/-- The statement at the head of the tokens. -/
def statement : List Token → Except Obstacle (Statement × List Token)
  | ⟨.word name, _⟩ :: ts => assignment name ts
  | ⟨.query q, _⟩ :: ts => (afterSemicolon ts).map fun ts => (.query q, ts)
  | ts => .error (.grammar (.unexpected (headKind ts)) ts)

/-! ### Lengths -/

theorem length_of_pathTail {ts rest : List Token} {names : List String} (h : pathTail ts = .ok (names, rest)) :
    rest.length ≤ ts.length := by
  fun_induction pathTail ts generalizing names with
  | case1 _ _ _ ts ih =>
    obtain ⟨⟨more, r⟩, hp, he⟩ := Outcome.map_eq_ok_iff.1 h
    cases he
    have : r.length ≤ ts.length := ih hp
    simp only [List.length_cons]
    omega
  | case2 => cases h
  | case3 => cases h; exact Nat.le_refl _

theorem length_of_afterSeparator {ts rest : List Token} (h : afterSeparator ts = .ok rest) :
    rest.length < ts.length := by
  unfold afterSeparator at h
  split at h
  · cases h; simp
  · cases h; simp
  · cases h

theorem length_of_afterSemicolon {ts rest : List Token} (h : afterSemicolon ts = .ok rest) :
    rest.length < ts.length := by
  unfold afterSemicolon at h
  split at h
  · cases h; simp
  · cases h

theorem length_of_literal {ts rest : List Token} {v : Literal} (h : literal ts = .ok (v, rest)) :
    rest.length < ts.length := by
  unfold literal at h
  split at h
  · split at h <;> cases h
    simp
  · cases h; simp
  · cases h; simp
  · obtain ⟨⟨more, r⟩, hp, he⟩ := Outcome.map_eq_ok_iff.1 h
    cases he
    exact Nat.lt_succ_of_le (length_of_pathTail hp)
  · cases h

/-- The parts of an assignment that is read. -/
theorem assignment_eq_ok_iff {name : String} {ts rest : List Token} {s : Statement} :
    assignment name ts = .ok (s, rest) ↔
      ∃ names t₁ t₂ v t₃, pathTail ts = .ok (names, t₁) ∧ afterSeparator t₁ = .ok t₂ ∧ literal t₂ = .ok (v, t₃) ∧
        afterSemicolon t₃ = .ok rest ∧ s = .assign (name :: names) v := by
  unfold assignment
  constructor
  · intro h
    obtain ⟨⟨names, t₁⟩, h₁, h⟩ := Outcome.bind_eq_ok_iff.1 h
    obtain ⟨t₂, h₂, h⟩ := Outcome.bind_eq_ok_iff.1 h
    obtain ⟨⟨v, t₃⟩, h₃, h⟩ := Outcome.bind_eq_ok_iff.1 h
    obtain ⟨t₄, h₄, h⟩ := Outcome.bind_eq_ok_iff.1 h
    cases h
    exact ⟨names, t₁, t₂, v, t₃, h₁, h₂, h₃, h₄, rfl⟩
  · rintro ⟨names, t₁, t₂, v, t₃, h₁, h₂, h₃, h₄, rfl⟩
    simp only [h₁, h₂, h₃, h₄, bind, Except.bind]
    rfl

theorem length_of_statement {ts rest : List Token} {s : Statement} (h : statement ts = .ok (s, rest)) :
    rest.length < ts.length := by
  unfold statement at h
  split at h
  · obtain ⟨_, _, _, _, _, h₁, h₂, h₃, h₄, -⟩ := assignment_eq_ok_iff.1 h
    have := length_of_pathTail h₁
    have := length_of_afterSeparator h₂
    have := length_of_literal h₃
    have := length_of_afterSemicolon h₄
    simp only [List.length_cons]
    omega
  · obtain ⟨r, hs, he⟩ := Outcome.map_eq_ok_iff.1 h
    cases he
    exact Nat.lt_succ_of_lt (length_of_afterSemicolon hs)
  · cases h

/-! ### All statements -/

/-- The statements that were read, and what stopped the reading before the end. -/
structure Reading where
  statements : List Statement
  obstacle : Option Obstacle
  deriving DecidableEq, Repr

/-- Puts a statement in front of a reading. -/
def Reading.push (s : Statement) (r : Reading) : Reading := { r with statements := s :: r.statements }

/-- Reads statements up to the end of the tokens or the first obstacle. -/
def readAll (ts : List Token) : Reading :=
  if ts.isEmpty then ⟨[], none⟩
  else match _h : statement ts with
    | .ok (s, rest) => (readAll rest).push s
    | .error o => ⟨[], some o⟩
  termination_by ts.length
  decreasing_by exact length_of_statement _h

theorem readAll_nil : readAll [] = ⟨[], none⟩ := by
  rw [readAll]
  rfl

theorem readAll_of_ok {ts rest : List Token} {s : Statement} (h : statement ts = .ok (s, rest)) :
    readAll ts = (readAll rest).push s := by
  have hne : ts ≠ [] := by
    rintro rfl
    cases h
  rw [readAll, if_neg (by simpa using hne)]
  split <;> simp_all

theorem readAll_of_error {ts : List Token} {o : Obstacle} (hne : ts ≠ []) (h : statement ts = .error o) :
    readAll ts = ⟨[], some o⟩ := by
  rw [readAll, if_neg (by simpa using hne)]
  split <;> simp_all

/-- How many tokens were taken of `ts` when the reading ended. -/
def Reading.consumed (r : Reading) (ts : List Token) : Nat :=
  match r.obstacle with
  | some (.grammar f rest) => ts.length - rest.length + (if f.taken && !rest.isEmpty then 1 else 0)
  | _ => ts.length

end Statement
end Appraisal.Submission
