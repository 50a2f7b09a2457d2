import Appraisal.Proofs.Submission.Agreement
import Appraisal.Proofs.Submission.Dialect
import Appraisal.Proofs.Submission.Misfit
import Appraisal.Proofs.Submission.Place

/-! Why a text cannot be read. In the line notation nothing is refused but an integer with too many digits, and the first
    line that assigns one gives the fault (`fields_eq_error_iff`). In the statement notation reading stops at such an
    integer if all before it is in order (`obstacle_eq_numeral_iff`); everything else is a report. So a text with no
    more digits than an integer may have is read, or is reported on in the statement notation
    (`fails_by_report_or_digits`). -/

namespace Appraisal
open Text

/-! ### Integers with too many digits -/

namespace Numeral

/-- The numeral is an integer with more digits than are read. -/
def Plain.Overlong (n : Plain) : Prop := n.fraction = none ∧ digitLimit < n.whole.length

theorem read_chars_eq_error_iff {n : Plain} {f : Fault} :
    read n.chars = .error f ↔ n.Overlong ∧ f = .tooManyDigits ⟨n.whole.length⟩ := by
  rw [read_chars]
  split
  · rename_i h
    exact ⟨fun hf => ⟨h, (Except.error.inj hf).symm⟩, fun hf => hf.2 ▸ rfl⟩
  · rename_i h
    exact ⟨nofun, fun hf => absurd hf.1 h⟩

/-- The digits of an integer are all in the text that has its characters in it. -/
theorem Plain.Overlong.lt_countP {n : Plain} (h : n.Overlong) {text : List Char} (hn : n.chars.Sublist text) :
    digitLimit < text.countP Char.isDigit := by
  have hwhole : n.whole.Sublist n.chars :=
    (List.sublist_append_right n.sign n.whole).trans (List.sublist_append_left _ n.tail)
  calc digitLimit < n.whole.length := h.2
    _ = n.whole.countP Char.isDigit := (List.countP_eq_length.2 n.whole_digits).symm
    _ ≤ text.countP Char.isDigit := (hwhole.trans hn).countP_le

end Numeral

namespace Submission
open Numeral

/-! ### Lines -/

namespace Lines
variable {v : Vocabulary} {line : List Char} {f : Numeral.Fault}

/-- The line assigns an integer with too many digits. -/
def Overlong (line : List Char) (f : Numeral.Fault) : Prop :=
  ∃ name text, ∃ n : Plain, divide (strip line) = some (name, text) ∧ n.chars = dropBackticks text ∧ n.Overlong ∧
    f = .tooManyDigits ⟨n.whole.length⟩

/-- The first of some lines that assigns an integer with too many digits. -/
def FirstOverlong (lines : List (List Char)) (f : Numeral.Fault) : Prop :=
  ∃ before line after, lines = before ++ line :: after ∧ (∀ l ∈ before, ∀ g, ¬ Overlong l g) ∧ Overlong line f

theorem value_eq_error_iff {cs : List Char} : value cs = .error f ↔
    ∃ n : Plain, n.chars = cs ∧ n.Overlong ∧ f = .tooManyDigits ⟨n.whole.length⟩ := by
  unfold value
  split
  · rename_i hnumeral
    obtain ⟨n, rfl⟩ := isNumeral_iff.1 hnumeral
    rw [Outcome.map_eq_error_iff]
    constructor
    · exact fun h => ⟨n, rfl, read_chars_eq_error_iff.1 h⟩
    · rintro ⟨m, hm, h⟩
      exact hm ▸ read_chars_eq_error_iff.2 h
  · rename_i hnumeral
    exact ⟨nofun, fun ⟨n, hn, _⟩ => absurd (isNumeral_iff.2 ⟨n, hn⟩) hnumeral⟩

theorem binding?_eq_error_iff : binding? v line = .error f ↔ Overlong line f := by
  unfold binding? Overlong
  cases hdivide : divide (strip line) with
  | none => simp
  | some p =>
    obtain ⟨name, text⟩ := p
    dsimp only
    rw [Outcome.map_eq_error_iff, value_eq_error_iff]
    simp

theorem bindings_eq_error_iff {lines : List (List Char)} : bindings v lines = .error f ↔ FirstOverlong lines f := by
  induction lines with
  | nil => simp [bindings, FirstOverlong]
  | cons line lines ih =>
    rw [bindings, Outcome.bind_eq_error_iff, binding?_eq_error_iff]
    constructor
    · rintro (h | ⟨e, he, h⟩)
      · exact ⟨[], line, lines, rfl, by simp, h⟩
      · rcases Outcome.bind_eq_error_iff.1 h with h | ⟨es, -, h⟩
        · obtain ⟨before, l, after, rfl, hbefore, hl⟩ := ih.1 h
          refine ⟨line :: before, l, after, rfl, List.forall_mem_cons.2 ⟨fun g hg => ?_, hbefore⟩, hl⟩
          rw [← binding?_eq_error_iff (v := v), he] at hg
          cases hg
        · cases h
    · rintro ⟨before, l, after, hlines, hbefore, hl⟩
      cases before with
      | nil =>
        cases hlines
        exact .inl hl
      | cons b before =>
        cases hlines
        obtain ⟨hb, hbefore⟩ := List.forall_mem_cons.1 hbefore
        cases he : binding? v line with
        | error g => exact absurd (binding?_eq_error_iff.1 he) (hb g)
        | ok e => exact .inr ⟨e, rfl, Outcome.bind_eq_error_iff.2 (.inl (ih.2 ⟨before, l, after, rfl, hbefore, hl⟩))⟩

theorem fields_eq_error_iff {text : List Char} : fields v text = .error f ↔ FirstOverlong (split text) f := by
  rw [fields_eq_bindings, Outcome.map_eq_error_iff, bindings_eq_error_iff]

theorem ofLines_eq_error_iff {text : List Char} {g : Fault} :
    ofLines v text = .error g ↔ ∃ f, g = .numeral f ∧ FirstOverlong (split text) f := by
  simp only [ofLines, ← fields_eq_error_iff (v := v)]
  cases fields v text <;> simp [eq_comm]

/-! ### The characters of a line -/

theorem divide_sublist {name text : List Char} (h : divide line = some (name, text)) : text.Sublist line := by
  obtain ⟨name, value, ⟨-, -, -, -⟩, -, rfl⟩ := divide_eq_some_iff.1 h
  exact (strip_sublist value).trans ((List.sublist_cons_self _ value).trans (List.sublist_append_right name _))

theorem Breaks.sublist {text : List Char} {lines : List (List Char)} (h : Breaks text lines) :
    ∀ line ∈ lines, line.Sublist text := by
  induction h with
  | last => exact List.forall_mem_singleton.2 (List.Sublist.refl _)
  | @feed first text _ _ _ _ ih =>
    refine List.forall_mem_cons.2 ⟨List.sublist_append_left first _, fun line hline => ?_⟩
    exact ((ih line hline).cons _).trans (List.sublist_append_right first _)
  | @returnFeed first text _ _ _ ih =>
    refine List.forall_mem_cons.2 ⟨List.sublist_append_left first _, fun line hline => ?_⟩
    exact (((ih line hline).cons _).cons _).trans (List.sublist_append_right first _)

theorem Overlong.lt_countP (h : Overlong line f) : digitLimit < line.countP Char.isDigit := by
  obtain ⟨name, text, n, hdivide, hn, hlong, -⟩ := h
  refine hlong.lt_countP ?_
  rw [hn]
  exact List.filter_sublist.trans ((divide_sublist hdivide).trans (strip_sublist line))

end Lines

/-! ### Statements -/

namespace Grammar
open Scan Statement

/-- After some clauses that can be read an assignment begins, up to an integer with too many digits. -/
def Overlong (ls : List Lexeme) (f : Numeral.Fault) : Prop :=
  ∃ (cs : List Clause) (p : Path) (sep : Separator) (n : Plain) (rest : List Lexeme),
    ls = cs.flatMap Clause.lexemes ++ (p.lexemes ++ [.mark sep.mark, .number (String.ofList n.chars)] ++ rest) ∧
      (∀ c ∈ cs, c.Within) ∧ n.Overlong ∧ f = .tooManyDigits ⟨n.whole.length⟩

variable {ts : List Token} {f : Numeral.Fault}

theorem exists_of_literal_numeral (hplain : ∀ t ∈ ts, PlainNumber t.lexeme) (h : literal ts = .error (.numeral f)) :
    ∃ q rest, ∃ n : Plain, ts = ⟨.number (String.ofList n.chars), q⟩ :: rest ∧ Numeral.read n.chars = .error f := by
  unfold literal at h
  split at h
  · rename_i numeral q rest
    obtain ⟨n, hn⟩ := hplain _ List.mem_cons_self numeral rfl
    split at h
    · cases h
    · rename_i g hread
      cases h
      exact ⟨q, rest, n, by rw [hn, String.ofList_toList], hn ▸ hread⟩
  · cases h
  · cases h
  · exact (isMisfit_of_pathTail (Outcome.map_eq_error_iff.1 h)).elim
  · cases h

theorem exists_of_statement_numeral (hplain : ∀ t ∈ ts, PlainNumber t.lexeme)
    (h : statement ts = .error (.numeral f)) : ∃ us rest, ∃ (p : Path) (sep : Separator) (n : Plain), ts = us ++ rest ∧
      us.map Token.lexeme = p.lexemes ++ [.mark sep.mark, .number (String.ofList n.chars)] ∧
      Numeral.read n.chars = .error f := by
  unfold statement at h
  split at h
  · rename_i name q ts
    unfold assignment at h
    rcases Outcome.bind_eq_error_iff.1 h with h | ⟨⟨names, t₁⟩, h₁, h⟩
    · exact (isMisfit_of_pathTail h).elim
    rcases Outcome.bind_eq_error_iff.1 h with h | ⟨t₂, h₂, h⟩
    · unfold afterSeparator at h
      split at h <;> cases h
    rcases Outcome.bind_eq_error_iff.1 h with hliteral | ⟨⟨x, t₃⟩, -, h⟩
    · obtain ⟨us, rfl, hus, -⟩ := pathTail_eq_ok_iff.1 h₁
      obtain ⟨q₂, sep, rfl⟩ := afterSeparator_eq_ok_iff.1 h₂
      obtain ⟨q₃, rest, n, rfl, hread⟩ := exists_of_literal_numeral (fun t ht => hplain t (by simp [ht])) hliteral
      refine ⟨⟨.word name, q⟩ :: (us ++ [⟨.mark sep.mark, q₂⟩, ⟨.number (String.ofList n.chars), q₃⟩]), rest,
        ⟨name, names⟩, sep, n, by simp, ?_, hread⟩
      simp [Path.lexemes, hus]
    rcases Outcome.bind_eq_error_iff.1 h with h | ⟨t₄, -, h⟩
    · exact (isMisfit_of_afterSemicolon h).elim
    · cases h
  · exact (isMisfit_of_afterSemicolon (Outcome.map_eq_error_iff.1 h)).elim
  · cases h

theorem obstacle_eq_numeral_iff (hplain : ∀ t ∈ ts, PlainNumber t.lexeme) :
    (readAll ts).obstacle = some (.numeral f) ↔ Overlong (ts.map Token.lexeme) f := by
  constructor
  · intro h
    fun_induction readAll ts with
    | case1 => cases h
    | case2 ts hne s rest hs ih =>
      obtain ⟨us, c, rfl, hus, hwithin, -⟩ := (statement_eq_ok_iff hplain).1 hs
      obtain ⟨cs, p, sep, n, more, hrest, hall, hlong⟩ := ih (fun t ht => hplain t (List.mem_append_right _ ht)) h
      refine ⟨c :: cs, p, sep, n, more, ?_, List.forall_mem_cons.2 ⟨hwithin, hall⟩, hlong⟩
      simp only [List.map_append, hus, hrest, List.flatMap_cons, List.append_assoc]
    | case3 ts hne o hs =>
      cases h
      obtain ⟨us, rest, p, sep, n, rfl, hus, hread⟩ := exists_of_statement_numeral hplain hs
      exact ⟨[], p, sep, n, rest.map Token.lexeme, by simp [hus], by simp, read_chars_eq_error_iff.1 hread⟩
  · rintro ⟨cs, p, sep, n, more, hts, hall, hlong⟩
    induction cs generalizing ts with
    | nil =>
      rw [List.flatMap_nil, List.nil_append] at hts
      obtain ⟨us, rest, rfl, hus, -⟩ := List.map_eq_append_iff.1 hts
      have hs : statement (us ++ rest) = .error (.numeral f) := statement_of_unread hus (read_chars_eq_error_iff.2 hlong)
      have hne : us ++ rest ≠ [] := by
        rintro h
        rw [h] at hs
        cases hs
      rw [readAll_of_error hne hs]
    | cons c cs ih =>
      rw [List.flatMap_cons, List.append_assoc] at hts
      obtain ⟨us, rest, rfl, hus, hrest⟩ := List.map_eq_append_iff.1 hts
      obtain ⟨hwithin, hall⟩ := List.forall_mem_cons.1 hall
      have hs := (statement_eq_ok_iff hplain).2 ⟨us, c, rfl, hus, hwithin, rfl⟩
      rw [readAll_of_ok hs]
      exact ih (fun t ht => hplain t (List.mem_append_right _ ht)) hrest hall

theorem program_eq_numeral_iff {text : List Char} :
    Program.read text = .error (.numeral f) ↔ ∃ ls, Lexes ls text ∧ Overlong ls f := by
  cases hts : tokens text with
  | error g =>
    simp only [Program.read, hts, Lexes, reduceCtorEq, false_and, exists_false]
    simp
  | ok ts =>
    have hlexes : ∀ ls, Lexes ls text ↔ ts.tokens.map Token.lexeme = ls := by simp [Lexes, hts]
    simp only [hlexes, exists_eq_left', ← obstacle_eq_numeral_iff (plain_of_mem_tokens hts), Program.read, hts]
    generalize (readAll ts.tokens).obstacle = obstacle
    cases obstacle with
    | none => simp
    | some o => cases o <;> simp

theorem number_sublist {ls : List Lexeme} {text : List Char} (h : Lexes ls text) {n : Plain}
    (hn : .number (String.ofList n.chars) ∈ ls) : n.chars.Sublist text := by
  obtain ⟨span, hwritten, hspan⟩ := h.exists_written hn
  obtain ⟨m, hm, hchars⟩ := exists_of_written_number hwritten
  rw [String.toList_ofList] at hchars
  rwa [← hchars, hm]

theorem Overlong.lt_countP {ls : List Lexeme} {text : List Char} (hlexes : Lexes ls text) (h : Overlong ls f) :
    digitLimit < text.countP Char.isDigit := by
  obtain ⟨cs, p, sep, n, rest, rfl, -, hlong, -⟩ := h
  exact hlong.lt_countP (number_sublist hlexes (by simp))

end Grammar

/-! ### Texts -/

theorem dialect_of_read {v : Vocabulary} {text : List Char} {s : Submission} (h : read v text = .ok s) :
    s.dialect = Dialect.detect text := by
  unfold read at h
  split at h
  · rename_i hdetect
    obtain ⟨statements, -, rfl⟩ := Outcome.map_eq_ok_iff.1 h
    exact hdetect.symm
  · rename_i hdetect
    obtain ⟨bindings, -, rfl⟩ := Lines.ofLines_eq_ok_iff.1 h
    exact hdetect.symm

theorem malformed_only_in_statements {v : Vocabulary} {text : List Char} {report : Report}
    (h : read v text = .error (.malformed report)) : Dialect.detect text = .statements := by
  unfold read at h
  split at h
  · assumption
  · obtain ⟨f, hf, -⟩ := Lines.ofLines_eq_error_iff.1 h
    cases hf

theorem read_eq_numeral_iff {v : Vocabulary} {text : List Char} {f : Numeral.Fault} :
    read v text = .error (.numeral f) ↔
      Dialect.detect text = .lines ∧ Lines.FirstOverlong (Lines.split text) f ∨
      Dialect.detect text = .statements ∧ ∃ ls, Lexes ls text ∧ Grammar.Overlong ls f := by
  unfold read
  cases Dialect.detect text with
  | lines => simp [Lines.ofLines_eq_error_iff]
  | statements => simp [ofProgram, Outcome.map_eq_error_iff, Grammar.program_eq_numeral_iff]

/-- Reading lines fails exactly by the first integer with too many digits that a line assigns. Reading a text fails by a
    report, and then in the statement notation, or by such an integer: in the line notation by the first one, in the
    statement notation by the first one if the clauses before it are in order. So in a text with no more digits than an
    integer may have only reports remain. -/
theorem fails_by_report_or_digits (v : Vocabulary) (text : List Char) :
    (∀ f, Lines.fields v text = .error f ↔ Lines.FirstOverlong (Lines.split text) f) ∧
    (∀ report, read v text = .error (.malformed report) → Dialect.detect text = .statements) ∧
    (∀ f, read v text = .error (.numeral f) ↔
      Dialect.detect text = .lines ∧ Lines.FirstOverlong (Lines.split text) f ∨
      Dialect.detect text = .statements ∧ ∃ ls, Lexes ls text ∧ Grammar.Overlong ls f) ∧
    (text.countP Char.isDigit ≤ digitLimit → (∃ fields, Lines.fields v text = .ok fields) ∧
      ∀ f, read v text = .error f → Dialect.detect text = .statements ∧ ∃ report, f = .malformed report) := by
  refine ⟨fun f => Lines.fields_eq_error_iff, fun report => malformed_only_in_statements, fun f => read_eq_numeral_iff,
    fun hdigits => ?_⟩
  have hlines : ∀ f, ¬ Lines.FirstOverlong (Lines.split text) f := by
    rintro f ⟨before, line, after, hsplit, -, hlong⟩
    have hline : line.Sublist text := (Lines.breaks_split text).sublist line (by simp [hsplit])
    exact Nat.not_lt.2 hdigits (hlong.lt_countP.trans_le hline.countP_le)
  constructor
  · cases hfields : Lines.fields v text with
    | ok fields => exact ⟨fields, rfl⟩
    | error f => exact absurd (Lines.fields_eq_error_iff.1 hfields) (hlines f)
  · intro f hf
    cases f with
    | malformed report => exact ⟨malformed_only_in_statements hf, report, rfl⟩
    | numeral f =>
      rcases read_eq_numeral_iff.1 hf with ⟨-, hlong⟩ | ⟨-, ls, hls, hlong⟩
      · exact absurd hlong (hlines f)
      · exact absurd (hlong.lt_countP hls) (Nat.not_lt.2 hdigits)

/-- A string that is not closed is reported on in the statement notation, and lines with it are read. -/
theorem fails_by_report_or_digits_unclosed : ∃ report,
    read .empty "A: \"x;".toList = .error (.malformed report) ∧ Dialect.detect "A: \"x;".toList = .statements ∧
      ∃ fields, Lines.fields .empty "A: \"x;".toList = .ok fields := by
  obtain ⟨-, hreport, -, hshort⟩ := fails_by_report_or_digits .empty "A: \"x;".toList
  have hscan : tokens "A: \"x;".toList = .error ⟨.unterminatedString, ⟨1, 7, 6⟩⟩ := by decide +kernel
  have hselects : Dialect.detect "A: \"x;".toList = .statements := by decide +kernel
  have hread : read .empty "A: \"x;".toList =
      .error (.malformed (.about "A: \"x;".toList (.scan .unterminatedString) ⟨1, 7, 6⟩)) := by
    rw [read, hselects, ofProgram, Program.read, hscan]
    rfl
  exact ⟨_, hread, hreport _ hread, (hshort (by decide +kernel)).1⟩

/-! ### An integer with one digit too many -/

namespace Grammar
variable (v : Vocabulary) (k : Key) {n : Plain}

theorem firstOverlong_line (h : n.Overlong) :
    Lines.FirstOverlong (Lines.split (k.line n.chars)) (.tooManyDigits ⟨n.whole.length⟩) := by
  have hbare := bare_numeral n
  refine ⟨[], _, [], Lines.split_of_oneLine (k.bare_line hbare).oneLine, by simp, k.name.toList, n.chars, n, ?_,
    (dropBackticks_numeral n).symm, h, rfl⟩
  rw [(k.bare_line hbare).strip_eq, k.divide_line hbare]

theorem read_statement_of_overlong (h : n.Overlong) :
    read v (k.line (n.chars ++ [';'])) = .error (.numeral (.tooManyDigits ⟨n.whole.length⟩)) := by
  have hdetect : Dialect.detect (k.line (n.chars ++ [';'])) = .statements := by
    rw [Dialect.detect_eq_statements_iff]
    simp [Dialect.selects, Key.line]
  refine read_eq_numeral_iff.2 (.inr ⟨hdetect, _, lexes_assignment k (.number n), [], k.path, .colon, n,
    [.mark .semicolon], ?_, by simp, h, rfl⟩)
  simp [Clause.lexemes, Operand.lexemes]

/-- A line that assigns an integer with one digit too many. -/
def longLine : List Char := "A: ".toList ++ .replicate (digitLimit + 1) '1'

/-- In the line notation too there are texts that cannot be read, and in the statement notation texts that are well formed
    and cannot be read. -/
theorem long_integer_not_read :
    Dialect.detect longLine = .lines ∧
    Lines.fields .empty longLine = .error (.tooManyDigits ⟨digitLimit + 1⟩) ∧
    read .empty longLine = .error (.numeral (.tooManyDigits ⟨digitLimit + 1⟩)) ∧
    read .empty (longLine ++ [';']) = .error (.numeral (.tooManyDigits ⟨digitLimit + 1⟩)) := by
  let ones : Plain := ⟨false, .replicate (digitLimit + 1) '1', none, by simp, by simp, by simp, by simp⟩
  let keyA : Key := ⟨⟨"A", []⟩, by decide +kernel⟩
  have hlength : ones.whole.length = digitLimit + 1 := List.length_replicate
  have hlong : ones.Overlong := ⟨rfl, by omega⟩
  have hchars : ones.chars = .replicate (digitLimit + 1) '1' := List.append_nil _
  have hline : longLine = keyA.line ones.chars := by
    have hhead : "A: ".toList = keyA.name.toList ++ [':', ' '] := by decide +kernel
    rw [longLine, hhead, Key.line, hchars, List.append_assoc]
    rfl
  have hlines : Dialect.detect longLine = .lines := by decide +kernel
  have hfirst : Lines.FirstOverlong (Lines.split longLine) (.tooManyDigits ⟨digitLimit + 1⟩) := by
    rw [hline, ← hlength]
    exact firstOverlong_line keyA hlong
  have hstatement := read_statement_of_overlong .empty keyA hlong
  rw [hlength] at hstatement
  refine ⟨hlines, Lines.fields_eq_error_iff.2 hfirst, read_eq_numeral_iff.2 (.inl ⟨hlines, hfirst⟩), ?_⟩
  rw [hline, ← hstatement, Key.line, Key.line]
  simp only [List.append_assoc, List.cons_append]

end Grammar
end Submission
end Appraisal
