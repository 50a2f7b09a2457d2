import Appraisal.Proofs.OrderedMap
import Appraisal.Proofs.Submission.Reading
import Appraisal.Proofs.Submission.Tiling

/-! What a text in the statement notation says. It is read exactly if its tokens are those of clauses with numbers
    that can be read, and says what the clauses bind (`ofProgram_eq_ok_iff`, `ofProgram_eq_ok_iff_lexes`); so texts
    with the same lexemes say the same. A text of clauses fails by its first number that cannot be read
    (`ofProgram_of_lexes`). -/

namespace Appraisal.Submission.Grammar
open Scan Numeral Statement

/-! ### What clauses say -/

def Clause.isQuery : Clause → Bool
  | assign .. => false
  | query _ => true

/-- What some clauses say: their bindings one after another, and whether a query is among them. -/
def Clause.submission (v : Vocabulary) (cs : List Clause) : Submission :=
  ⟨.statements, .ofList (cs.filterMap (binding? v)), cs.any isQuery⟩

theorem fields_clauses (v : Vocabulary) (cs : List Clause) :
    Program.fields v (cs.map Clause.statement) = .ofList (cs.filterMap (Clause.binding? v)) := by
  rw [Program.fields, OrderedMap.ofList, List.foldl_map, List.foldl_filterMap]
  congr 1
  funext fields c
  cases c with
  | assign p sep x => rw [Clause.statement, Program.assign, Operand.value_literal]; rfl
  | query q => rfl

theorem hasQuery_clauses (cs : List Clause) : Program.hasQuery (cs.map Clause.statement) = cs.any Clause.isQuery := by
  rw [Program.hasQuery, List.any_map]
  congr 1
  funext c
  cases c <;> rfl

theorem isQuery_iff {c : Clause} : c.isQuery = true ↔ ∃ q, c = .query q := by
  cases c <;> simp [Clause.isQuery]

/-! ### Reading a text -/

theorem read_eq_ok_iff_readAll {text : List Char} {ts : TokenList} (h : tokens text = .ok ts) {ss : List Statement} :
    Program.read text = .ok ss ↔ readAll ts.tokens = ⟨ss, none⟩ := by
  simp only [Program.read, h]
  generalize readAll ts.tokens = reading
  obtain ⟨statements, obstacle⟩ := reading
  cases obstacle with
  | none => simp
  | some o => cases o <;> simp

/-- A text is read exactly if its lexemes are those of clauses with numbers that can be read. -/
theorem read_eq_ok_iff_lexes {text : List Char} {ss : List Statement} : Program.read text = .ok ss ↔
    ∃ cs : List Clause, Lexes (cs.flatMap Clause.lexemes) text ∧ (∀ c ∈ cs, c.Within) ∧ cs.map Clause.statement = ss := by
  cases hts : tokens text with
  | error f => simp [Program.read, Lexes, hts]
  | ok ts =>
    rw [read_eq_ok_iff_readAll hts, readAll_eq_iff (plain_of_mem_tokens hts)]
    simp [Lexes, hts]

theorem submission_clauses (v : Vocabulary) (cs : List Clause) : Clause.submission v cs =
    ⟨.statements, Program.fields v (cs.map Clause.statement), Program.hasQuery (cs.map Clause.statement)⟩ := by
  rw [fields_clauses, hasQuery_clauses]
  rfl

/-- A text that is read says what its clauses say. -/
theorem ofProgram_eq_ok_iff_lexes {v : Vocabulary} {text : List Char} {s : Submission} : ofProgram v text = .ok s ↔
    ∃ cs : List Clause, Lexes (cs.flatMap Clause.lexemes) text ∧ (∀ c ∈ cs, c.Within) ∧ Clause.submission v cs = s := by
  rw [ofProgram, Outcome.map_eq_ok_iff]
  constructor
  · rintro ⟨ss, hss, rfl⟩
    obtain ⟨cs, hcs, hwithin, rfl⟩ := read_eq_ok_iff_lexes.1 hss
    exact ⟨cs, hcs, hwithin, submission_clauses v cs⟩
  · rintro ⟨cs, hcs, hwithin, rfl⟩
    exact ⟨_, read_eq_ok_iff_lexes.2 ⟨cs, hcs, hwithin, rfl⟩, (submission_clauses v cs).symm⟩

theorem ofProgram_eq_ok_iff {v : Vocabulary} {text : List Char} {ts : TokenList} (h : tokens text = .ok ts)
    {s : Submission} : ofProgram v text = .ok s ↔ ∃ cs : List Clause,
      ts.tokens.map Token.lexeme = cs.flatMap Clause.lexemes ∧ (∀ c ∈ cs, c.Within) ∧ Clause.submission v cs = s := by
  rw [ofProgram_eq_ok_iff_lexes]
  simp [Lexes, h]

/-! ### Numbers that cannot be read -/

/-- Why a clause cannot be read: its number is an integer with too many digits. -/
def Clause.fault? : Clause → Option Numeral.Fault
  | assign _ _ (.number n) =>
    if n.fraction = none ∧ digitLimit < n.whole.length then some (.tooManyDigits ⟨n.whole.length⟩) else none
  | _ => none

theorem within_of_fault?_eq_none {c : Clause} (h : c.fault? = none) : c.Within := by
  cases c with
  | query q => trivial
  | assign p sep x =>
    cases x with
    | number n =>
      intro hf
      by_contra hlimit
      rw [Clause.fault?, if_pos ⟨hf, Nat.not_le.1 hlimit⟩] at h
      cases h
    | string s => trivial
    | symbol s => trivial
    | path p => trivial

/-- A clause that cannot be read assigns an integer with too many digits. -/
theorem exists_of_fault? {c : Clause} {f : Numeral.Fault} (h : c.fault? = some f) :
    ∃ p sep, ∃ n : Plain, c = .assign p sep (.number n) ∧ Numeral.read n.chars = .error f ∧
      f = .tooManyDigits ⟨n.whole.length⟩ := by
  cases c with
  | query q => cases h
  | assign p sep x =>
    cases x with
    | number n =>
      rw [Clause.fault?] at h
      split at h
      · rename_i hlong
        cases h
        exact ⟨p, sep, n, rfl, by rw [read_chars, if_pos hlong], rfl⟩
      · cases h
    | string s => cases h
    | symbol s => cases h
    | path p => cases h

/-- An assignment up to a number that cannot be read. -/
theorem statement_of_unread {us rest : List Token} {p : Path} {sep : Separator} {n : Plain} {f : Numeral.Fault}
    (hus : us.map Token.lexeme = p.lexemes ++ [.mark sep.mark, .number (String.ofList n.chars)])
    (hread : Numeral.read n.chars = .error f) : statement (us ++ rest) = .error (.numeral f) := by
  obtain ⟨q, us₁, rfl, h₁⟩ := exists_cons_of_lexemes hus
  obtain ⟨us₂, us₃, rfl, h₂, h₃⟩ := List.map_eq_append_iff.1 h₁
  obtain ⟨q₃, us₄, rfl, h₄⟩ := exists_cons_of_lexemes h₃
  obtain ⟨q₅, us₅, rfl, h₅⟩ := exists_cons_of_lexemes h₄
  obtain rfl := List.map_eq_nil_iff.1 h₅
  generalize hvalue : (⟨.number (String.ofList n.chars), q₅⟩ :: ([] ++ rest) : List Token) = value
  have hliteral : literal value = .error (.numeral f) := by
    simp only [← hvalue, literal, String.toList_ofList, hread]
  have hsep : headKind (⟨.mark sep.mark, q₃⟩ :: value) ≠ .dot := by
    cases sep <;> simp [headKind, Separator.mark, Lexeme.kind]
  have hpath := pathTail_eq_ok_iff.2 ⟨us₂, rfl, h₂, hsep⟩
  have hseparator : afterSeparator (⟨.mark sep.mark, q₃⟩ :: value) = .ok value :=
    afterSeparator_eq_ok_iff.2 ⟨q₃, sep, rfl⟩
  simp only [List.cons_append, List.append_assoc, hvalue, statement, assignment, hpath, hseparator, hliteral, bind,
    Except.bind]

theorem statement_of_fault? {us rest : List Token} {c : Clause} {f : Numeral.Fault}
    (hus : us.map Token.lexeme = c.lexemes) (hf : c.fault? = some f) :
    statement (us ++ rest) = .error (.numeral f) := by
  obtain ⟨p, sep, n, rfl, hread, -⟩ := exists_of_fault? hf
  have hclause : (Clause.assign p sep (.number n)).lexemes =
      p.lexemes ++ [.mark sep.mark, .number (String.ofList n.chars)] ++ [.mark .semicolon] := by
    simp [Clause.lexemes, Operand.lexemes]
  rw [hclause] at hus
  obtain ⟨before, last, rfl, hbefore, -⟩ := List.map_eq_append_iff.1 hus
  rw [List.append_assoc]
  exact statement_of_unread hbefore hread

/-- The tokens of clauses are read up to the first clause that cannot be read. -/
theorem obstacle_of_clauses {ts : List Token} (hplain : ∀ t ∈ ts, PlainNumber t.lexeme) {cs : List Clause}
    (hcs : ts.map Token.lexeme = cs.flatMap Clause.lexemes) :
    (readAll ts).obstacle = (cs.findSome? Clause.fault?).map .numeral := by
  induction cs generalizing ts with
  | nil =>
    obtain rfl := List.map_eq_nil_iff.1 hcs
    rw [readAll_nil]
    rfl
  | cons c cs ih =>
    obtain ⟨us, rest, rfl, hus, hrest⟩ := List.map_eq_append_iff.1 hcs
    cases hf : c.fault? with
    | none =>
      have hs := (statement_eq_ok_iff hplain).2 ⟨us, c, rfl, hus, within_of_fault?_eq_none hf, rfl⟩
      rw [readAll_of_ok hs, List.findSome?_cons, hf]
      exact ih (fun t ht => hplain t (List.mem_append_right _ ht)) hrest
    | some f =>
      have hne : us ++ rest ≠ [] := by
        rintro h
        rw [List.append_eq_nil_iff] at h
        obtain ⟨p, sep, n, rfl, -⟩ := exists_of_fault? hf
        rw [h.1] at hus
        cases hus
      rw [readAll_of_error hne (statement_of_fault? hus hf), List.findSome?_cons, hf]
      rfl

/-- A text of clauses says what they say, or fails by the first clause that cannot be read. -/
theorem ofProgram_of_lexes {v : Vocabulary} {text : List Char} {cs : List Clause}
    (h : Lexes (cs.flatMap Clause.lexemes) text) :
    ofProgram v text = (cs.findSome? Clause.fault?).elim (.ok (Clause.submission v cs)) fun f => .error (.numeral f) := by
  cases hf : cs.findSome? Clause.fault? with
  | none =>
    rw [List.findSome?_eq_none_iff] at hf
    exact ofProgram_eq_ok_iff_lexes.2 ⟨cs, h, fun c hc => within_of_fault?_eq_none (hf c hc), rfl⟩
  | some f =>
    obtain ⟨ts, hts, hcs⟩ := h
    have hobstacle := obstacle_of_clauses (plain_of_mem_tokens hts) hcs
    rw [hf] at hobstacle
    simp only [ofProgram, Program.read, hts, hobstacle]
    rfl

/-! ### Numbers that can be read -/

/-- The lexeme is no integer of more digits than are read. -/
def Short : Lexeme → Prop
  | .number numeral => '.' ∉ numeral.toList → (numeral.toList.filter Char.isDigit).length ≤ digitLimit
  | _ => True

instance : DecidablePred Short
  | .number _ => inferInstanceAs (Decidable (_ → _))
  | .mark _ | .query _ | .string _ | .symbol _ | .word _ => inferInstanceAs (Decidable True)

theorem within_of_short {c : Clause} (h : ∀ l ∈ c.lexemes, Short l) : c.Within := by
  cases c with
  | query q => trivial
  | assign p sep x =>
    cases x with
    | string s => trivial
    | symbol s => trivial
    | path p => trivial
    | number n =>
      intro hf
      have hpoint : '.' ∉ n.chars := by simp [point_mem_iff, hf]
      have hshort := h (.number (String.ofList n.chars)) (by simp [Clause.lexemes, Operand.lexemes])
      rw [Short, String.toList_ofList, digits_of_integer hf] at hshort
      exact hshort hpoint

/-! ### Programs -/

theorem isProgram_tokens_iff {text : List Char} {ts : TokenList} (h : tokens text = .ok ts) :
    IsProgram (ts.tokens.map fun t => t.lexeme.kind) ↔
      ∃ cs : List Clause, ts.tokens.map Token.lexeme = cs.flatMap Clause.lexemes := by
  have hkinds : ts.tokens.map (fun t => t.lexeme.kind) = (ts.tokens.map Token.lexeme).map Lexeme.kind := by
    rw [List.map_map]
    rfl
  rw [hkinds]
  refine isProgram_iff fun l hl => ?_
  obtain ⟨t, ht, rfl⟩ := List.mem_map.1 hl
  exact plain_of_mem_tokens h t ht

theorem ofProgram_clauses {v : Vocabulary} {text : List Char} {ts : TokenList} (h : tokens text = .ok ts)
    (hshort : ∀ t ∈ ts.tokens, Short t.lexeme) {cs : List Clause}
    (hcs : ts.tokens.map Token.lexeme = cs.flatMap Clause.lexemes) :
    ofProgram v text = .ok (Clause.submission v cs) := by
  refine (ofProgram_eq_ok_iff h).2 ⟨cs, hcs, fun c hc => within_of_short fun l hl => ?_, rfl⟩
  have hmem : l ∈ ts.tokens.map Token.lexeme := hcs ▸ List.mem_flatMap.2 ⟨c, hc, hl⟩
  obtain ⟨t, ht, rfl⟩ := List.mem_map.1 hmem
  exact hshort t ht

/-- A text whose integers are short enough is read exactly if the kinds of its tokens are those of a program, whatever
    the vocabulary. Its fields are the bindings of its assignments from left to right: a name keeps the place of its
    first binding and has the value of the last one. It asks for a verdict exactly if a query is among its clauses. -/
theorem program_read_by_grammar {text : List Char} {ts : TokenList} (v : Vocabulary) (h : tokens text = .ok ts)
    (hshort : ∀ t ∈ ts.tokens, Short t.lexeme) :
    ((∃ s, ofProgram v text = .ok s) ↔ IsProgram (ts.tokens.map fun t => t.lexeme.kind)) ∧
    ∀ s, ofProgram v text = .ok s →
      (∃ cs : List Clause, ts.tokens.map Token.lexeme = cs.flatMap Clause.lexemes) ∧
      ∀ cs : List Clause, ts.tokens.map Token.lexeme = cs.flatMap Clause.lexemes →
        s.fields = .ofList (cs.filterMap (Clause.binding? v)) ∧
        s.fields.keys = ((cs.filterMap (Clause.binding? v)).map Prod.fst).eraseDups ∧
        (∀ key, s.fields.get? key =
          ((cs.filterMap (Clause.binding? v)).filter (·.1 = key)).getLast?.map Prod.snd) ∧
        (∀ p sep n, Clause.assign p sep (.number n) ∈ cs → ((∃ x, n.value = .real x) ↔ '.' ∈ n.chars)) ∧
        (s.seenQuery = true ↔ ∃ q, Clause.query q ∈ cs) := by
  constructor
  · rw [isProgram_tokens_iff h]
    constructor
    · rintro ⟨s, hs⟩
      obtain ⟨cs, hcs, -, -⟩ := (ofProgram_eq_ok_iff h).1 hs
      exact ⟨cs, hcs⟩
    · rintro ⟨cs, hcs⟩
      exact ⟨_, ofProgram_clauses h hshort hcs⟩
  · intro s hs
    constructor
    · obtain ⟨cs, hcs, -, -⟩ := (ofProgram_eq_ok_iff h).1 hs
      exact ⟨cs, hcs⟩
    · intro cs hcs
      have hsame := hs.symm.trans (ofProgram_clauses h hshort hcs)
      obtain rfl : s = Clause.submission v cs := by injection hsame
      refine ⟨rfl, OrderedMap.keys_ofList _, OrderedMap.get?_ofList _, fun _ _ _ _ => value_real_iff, ?_⟩
      rw [Clause.submission, List.any_eq_true]
      constructor
      · rintro ⟨c, hc, hquery⟩
        obtain ⟨q, rfl⟩ := isQuery_iff.1 hquery
        exact ⟨q, hc⟩
      · rintro ⟨q, hq⟩
        exact ⟨_, hq, rfl⟩

/-- In `A: 1; B = 2.5; A = x.Y; eval;` the second value of `A` takes the place of the first. -/
theorem program_read_by_grammar_repeated : ∃ s, ofProgram .empty "A: 1; B = 2.5; A = x.Y; eval;".toList = .ok s ∧
    s.fields.keys = ["A", "B"] ∧ s.fields.get? "A" = some (.text "y") ∧ s.seenQuery = true := by
  have htokens : (tokens "A: 1; B = 2.5; A = x.Y; eval;".toList).map (·.tokens.map Token.lexeme) =
      .ok [.word "A", .mark .colon, .number "1", .mark .semicolon, .word "B", .mark .equal, .number "2.5",
        .mark .semicolon, .word "A", .mark .equal, .word "x", .mark .dot, .word "Y", .mark .semicolon, .query .eval,
        .mark .semicolon] := by decide +kernel
  obtain ⟨ts, hts, hlexemes⟩ := Outcome.map_eq_ok_iff.1 htokens
  have hshort : ∀ t ∈ ts.tokens, Short t.lexeme := by
    rw [← List.forall_mem_map (f := Token.lexeme) (P := Short), hlexemes]
    decide
  have hcs : ts.tokens.map Token.lexeme = List.flatMap Clause.lexemes
      [.assign ⟨"A", []⟩ .colon (.number ⟨false, ['1'], none, by simp, by simp, by simp, by simp⟩),
        .assign ⟨"B", []⟩ .equal (.number ⟨false, ['2'], some ['5'], by simp, by simp, by simp, by simp⟩),
        .assign ⟨"A", []⟩ .equal (.path ⟨"x", ["Y"]⟩), .query .eval] := hlexemes.trans (by decide)
  obtain ⟨hread, hfacts⟩ := program_read_by_grammar .empty hts hshort
  obtain ⟨s, hs⟩ := hread.2 ((isProgram_tokens_iff hts).2 ⟨_, hcs⟩)
  obtain ⟨-, hkeys, hvalue, -, hquery⟩ := (hfacts s hs).2 _ hcs
  refine ⟨s, hs, hkeys.trans (by decide +kernel), (hvalue "A").trans ?_, hquery.2 ⟨.eval, by simp⟩⟩
  have hy : normalize "Y" = "y" := by decide
  rw [← hy]
  rfl

/-! ### Renderings -/

/-- Scanning a rendering gives its lexemes back, and all renderings of the same lexemes say the same. -/
theorem rendering_read_back {ls : List Lexeme} {text : List Char} (h : Renders ls text) :
    (∃ ts, tokens text = .ok ts ∧ ts.tokens.map Token.lexeme = ls ∧ ts.stop = Position.start.after text) ∧
    ∀ text', Renders ls text' → ∀ v s, ofProgram v text = .ok s ↔ ofProgram v text' = .ok s := by
  obtain ⟨ts, hts, hls, hstop⟩ := tokens_of_renders h
  refine ⟨⟨ts, hts, hls, hstop⟩, fun text' h' v s => ?_⟩
  obtain ⟨ts', hts', hls', -⟩ := tokens_of_renders h'
  rw [ofProgram_eq_ok_iff hts, ofProgram_eq_ok_iff hts', hls, hls']

/-- Comments, blanks and escapes in a text and in another with the same lexemes. -/
theorem rendering_read_back_commented :
    (∃ ts, tokens "A\t: // ; \"\n \"x\\\"y\" ;".toList = .ok ts ∧
      ts.tokens.map Token.lexeme = [.word "A", .mark .colon, .string "x\"y", .mark .semicolon]) ∧
    ∀ v s, ofProgram v "A\t: // ; \"\n \"x\\\"y\" ;".toList = .ok s ↔
      ofProgram v "\rA : \"x\\\"y\"\n; // end".toList = .ok s := by
  have word : Spelling (.word "A") ['A'] := .word rfl (by simp) (by intro q; cases q <;> decide)
  have string : Spelling (.string "x\"y") "\"x\\\"y\"".toList := .string (show '\n' ∉ "x\"y".toList by decide)
  have blank : ∀ c ∈ [' ', '\t', '\r', '\n'], Layout [c] := fun c hc => .blank hc .nil
  have space := blank ' ' (by decide)
  have left : Renders [.word "A", .mark .colon, .string "x\"y", .mark .semicolon]
      "A\t: // ; \"\n \"x\\\"y\" ;".toList := by
    have comment : Layout " // ; \"\n ".toList :=
      .blank (by decide) (.comment (show '\n' ∉ " ; \"".toList by decide) space)
    refine ⟨[], _, .nil, ?_, rfl⟩
    refine .cons word (blank '\t' (by decide)) (by simp) ?_
    refine .cons (.mark .colon) comment (by simp) ?_
    refine .cons string space (by simp) ?_
    exact .cons (.mark .semicolon) .nil (by simp) (.nil (.layout .nil))
  have right : Renders [.word "A", .mark .colon, .string "x\"y", .mark .semicolon]
      "\rA : \"x\\\"y\"\n; // end".toList := by
    refine ⟨['\r'], _, blank '\r' (by decide), ?_, rfl⟩
    refine .cons word space (by simp) ?_
    refine .cons (.mark .colon) space (by simp) ?_
    refine .cons string (blank '\n' (by decide)) (by simp) ?_
    exact .cons (.mark .semicolon) space (by simp) (.nil (.comment .nil (show '\n' ∉ " end".toList by decide)))
  obtain ⟨⟨ts, hts, hls, -⟩, hsame⟩ := rendering_read_back left
  exact ⟨⟨ts, hts, hls⟩, hsame _ right⟩

end Appraisal.Submission.Grammar
