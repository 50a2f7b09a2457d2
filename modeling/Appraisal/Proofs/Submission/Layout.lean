import Appraisal.Proofs.Submission.Scan

/-! Texts that are written from lexemes. A lexeme has spellings: a string stands in quotes with quotes and backslashes
    escaped, a symbol after a hash, a query in any letter case, and everything else as it is. Between two lexemes
    stands layout: blanks, line breaks and comments. Scanning such a text gives the lexemes back, whatever the
    layout (`scan_laidOut`). -/

namespace Appraisal.Submission
open Text Scan

/-- The characters that stand for one character of a string. -/
def escapeChar (c : Char) : List Char := if c = '"' ∨ c = '\\' then ['\\', c] else [c]

/-- The ways to write a lexeme. -/
inductive Spelling : Lexeme → List Char → Prop
  | mark (m : Mark) : Spelling (.mark m) [m.char]
  | string {content : List Char} (oneLine : '\n' ∉ content) :
      Spelling (.string (String.ofList content)) ('"' :: (content.flatMap escapeChar ++ ['"']))
  | symbol {name : List Char} (filled : name ≠ []) (chars : ∀ c ∈ name, isWordChar c = true) :
      Spelling (.symbol (String.ofList name)) ('#' :: name)
  | number (n : Numeral.Plain) : Spelling (.number (String.ofList n.chars)) n.chars
  | word {c : Char} {cs : List Char} (start : isWordStart c = true) (chars : ∀ d ∈ cs, isWordChar d = true)
      (noQuery : ∀ q : Query, (c :: cs).map Char.toUpper ≠ q.name.toList) :
      Spelling (.word (String.ofList (c :: cs))) (c :: cs)
  | query {q : Query} {cs : List Char} (capitals : cs.map Char.toUpper = q.name.toList) : Spelling (.query q) cs

/-- Blanks, line breaks, and comments with the line break that ends them. -/
inductive Layout : List Char → Prop
  | nil : Layout []
  | blank {c : Char} {cs : List Char} (isLayout : c ∈ [' ', '\t', '\r', '\n']) (rest : Layout cs) : Layout (c :: cs)
  | comment {text cs : List Char} (oneLine : '\n' ∉ text) (rest : Layout cs) :
      Layout ('/' :: '/' :: (text ++ '\n' :: cs))

/-- Layout at the end of a text, where the last comment needs no line break. -/
inductive Trailing : List Char → Prop
  | layout {cs : List Char} (h : Layout cs) : Trailing cs
  | comment {cs text : List Char} (h : Layout cs) (oneLine : '\n' ∉ text) : Trailing (cs ++ '/' :: '/' :: text)

/-- Lexemes one after another, each with the layout that follows it. There is some between any two. -/
inductive LaidOut : List Lexeme → List Char → Prop
  | nil {cs : List Char} (h : Trailing cs) : LaidOut [] cs
  | cons {l : Lexeme} {ls : List Lexeme} {cs gap rest : List Char} (spelling : Spelling l cs) (layout : Layout gap)
      (apart : ls ≠ [] → gap ≠ []) (more : LaidOut ls rest) : LaidOut (l :: ls) (cs ++ (gap ++ rest))

/-- The text is a rendering of the lexemes: they are laid out in it, after layout or none. -/
def Renders (ls : List Lexeme) (text : List Char) : Prop :=
  ∃ lead body, Layout lead ∧ LaidOut ls body ∧ text = lead ++ body

/-! ### Spellings -/

/-- The text after a lexeme does not go on with it. -/
def Lexeme.EndsBefore (rest : List Char) : Lexeme → Prop
  | .mark _ | .string _ => True
  | .symbol _ | .word _ | .query _ => Stops isWordChar rest
  | .number _ => Stops Char.isDigit rest ∧ ∀ more, rest = '.' :: more → Stops Char.isDigit more

theorem stringBody_escaped {content : List Char} (h : '\n' ∉ content) :
    StringBody content (content.flatMap escapeChar) := by
  induction content with
  | nil => exact .nil
  | cons c cs ih =>
    simp only [List.mem_cons, not_or] at h
    rw [List.flatMap_cons]
    by_cases hc : c = '"' ∨ c = '\\'
    · simpa [escapeChar, hc] using StringBody.escape hc (ih h.2)
    · have hplain := not_or.1 hc
      simpa [escapeChar, hc] using StringBody.plain hplain.1 hplain.2 (Ne.symm h.1) (ih h.2)

theorem query?_eq_some_iff {cs : List Char} {q : Query} : query? cs = some q ↔ cs.map Char.toUpper = q.name.toList := by
  unfold query?
  constructor
  · intro h
    dsimp only at h
    split at h
    · cases h
      assumption
    · split at h <;> cases h
      assumption
  · intro h
    cases q
    · rw [if_pos h]
    · rw [h]
      decide

theorem query?_eq_none {cs : List Char} (h : ∀ q : Query, cs.map Char.toUpper ≠ q.name.toList) : query? cs = none :=
  Option.eq_none_iff_forall_ne_some.2 fun q hq => h q (query?_eq_some_iff.1 hq)

theorem isAlpha_of_toUpper {c : Char} (h : c.toUpper.isUpper = true) : c.isAlpha = true := by
  have halpha : c.isAlpha = (c.isUpper || c.isLower) := rfl
  have hlower : c.isLower = (decide ('a'.val ≤ c.val) && decide (c.val ≤ 'z'.val)) := rfl
  unfold Char.toUpper at h
  rw [halpha, Bool.or_eq_true]
  split at h
  · rename_i hc
    right
    simpa [hlower, UInt32.le_iff_toNat_le] using hc
  · exact Or.inl h

theorem isAlpha_of_query {q : Query} {cs : List Char} (h : cs.map Char.toUpper = q.name.toList) :
    ∀ c ∈ cs, c.isAlpha = true := by
  have upper : ∀ u ∈ q.name.toList, u.isUpper = true := List.all_eq_true.1 (by cases q <;> decide)
  exact fun c hc => isAlpha_of_toUpper (upper _ (h ▸ List.mem_map_of_mem hc))

/-- A query is a word: it begins and goes on with letters. -/
theorem word_of_query {q : Query} {cs : List Char} (h : cs.map Char.toUpper = q.name.toList) :
    ∃ d ds, cs = d :: ds ∧ isWordStart d = true ∧ ∀ c ∈ ds, isWordChar c = true := by
  have alpha := isAlpha_of_query h
  cases cs with
  | nil => cases q <;> cases h
  | cons d ds =>
    refine ⟨d, ds, rfl, by simp [isWordStart, alpha d (by simp)], fun c hc => ?_⟩
    simp [isWordChar, Char.isAlphanum, alpha c (List.mem_cons_of_mem _ hc)]

theorem exists_numberStart (n : Numeral.Plain) : ∃ d ds, n.chars = d :: ds ∧ isNumberStart d = true := by
  cases hn : n.negative
  · obtain ⟨d, ds, hw, hd⟩ := n.exists_whole_cons
    exact ⟨d, ds ++ n.tail, by rw [n.chars_of_positive hn, hw, List.cons_append], by simp [isNumberStart, hd]⟩
  · exact ⟨'-', _, n.chars_of_negative hn, rfl⟩

/-- A numeral is what the scanner takes, where the text does not go on with it. -/
theorem step_chars {n : Numeral.Plain} {rest : List Char} (h : Ends n rest) :
    ∃ d ds, n.chars = d :: ds ∧ step d (ds ++ rest) = .lexeme (.number (String.ofList n.chars)) n.chars rest := by
  obtain ⟨d, ds, hd, hstart⟩ := exists_numberStart n
  refine ⟨d, ds, hd, ?_⟩
  rw [step_number hstart, ← List.cons_append, ← hd, numberPiece, splitNumeral_chars h]

/-- A spelled lexeme is what the scanner takes, where the text does not go on with it. -/
theorem step_spelling {l : Lexeme} {cs rest : List Char} (hs : Spelling l cs) (he : l.EndsBefore rest) :
    ∃ d ds, cs = d :: ds ∧ step d (ds ++ rest) = .lexeme l cs rest := by
  cases hs with
  | mark m => exact ⟨_, _, rfl, step_mark m rest⟩
  | @string content oneLine =>
    refine ⟨_, _, rfl, ?_⟩
    rw [step_quote, stringPiece, List.append_assoc, List.singleton_append,
      stringBody_written (stringBody_escaped oneLine)]
  | @symbol name filled chars =>
    refine ⟨_, _, rfl, ?_⟩
    have hdirective : (name ++ rest).head? ≠ some '!' := by
      obtain ⟨d, ds, rfl⟩ := List.exists_cons_of_ne_nil filled
      have := ne_of_class (chars d (by simp)) (d := '!') rfl
      simpa using this
    rw [step_hash, symbolPiece, if_neg hdirective, takeWhile_run chars he, dropWhile_run chars he]
    simp [filled]
  | number n => exact step_chars ⟨he.1, fun _ => he.2⟩
  | @word c cs start chars noQuery =>
    refine ⟨c, cs, rfl, ?_⟩
    rw [step_word start, takeWhile_run chars he, dropWhile_run chars he, wordLexeme, query?_eq_none noQuery]
  | @query q cs capitals =>
    obtain ⟨d, ds, rfl, start, chars⟩ := word_of_query capitals
    refine ⟨d, ds, rfl, ?_⟩
    rw [step_word start, takeWhile_run chars he, dropWhile_run chars he, wordLexeme, query?_eq_some_iff.2 capitals]

theorem scan_spelling {l : Lexeme} {cs rest : List Char} (hs : Spelling l cs) (he : l.EndsBefore rest)
    (p : Position) : scan p (cs ++ rest) = (scan (p.after cs) rest).map (push ⟨l, p⟩) := by
  obtain ⟨d, ds, rfl, h⟩ := step_spelling hs he
  exact scan_of_lexeme h p

/-! ### Layout -/

theorem isLayout_of_mem {c : Char} (h : c ∈ [' ', '\t', '\r', '\n']) : isLayout c = true := by
  simpa [isLayout, or_assoc] using h

theorem notNewline_of_oneLine {text : List Char} (h : '\n' ∉ text) : ∀ c ∈ text, notNewline c = true := by
  intro c hc
  simp only [notNewline, bne_iff_ne]
  rintro rfl
  exact h hc

/-- The scanner passes over layout. -/
theorem scan_layout {gap : List Char} (h : Layout gap) (rest : List Char) (p : Position) :
    scan p (gap ++ rest) = scan (p.after gap) rest := by
  induction h generalizing p with
  | nil => rfl
  | blank hc _ ih =>
    rw [List.cons_append, scan_of_layout (step_layout (isLayout_of_mem hc) _), ih]
    rfl
  | @comment text cs oneLine _ ih =>
    -- The comment is one step and the line break after it another.
    have hstep : step '/' ('/' :: (text ++ '\n' :: (cs ++ rest))) =
        .layout ('/' :: '/' :: text) ('\n' :: (cs ++ rest)) := by
      have hstop : Stops notNewline ('\n' :: (cs ++ rest)) := stops_cons.2 rfl
      rw [step_comment, takeWhile_run (notNewline_of_oneLine oneLine) hstop,
        dropWhile_run (notNewline_of_oneLine oneLine) hstop]
    rw [List.cons_append, List.cons_append, List.append_assoc, List.cons_append, scan_of_layout hstep,
      scan_of_layout (step_layout rfl _), ih]
    simp

theorem scan_trailing {cs : List Char} (h : Trailing cs) (p : Position) : scan p cs = .ok ⟨[], p.after cs⟩ := by
  cases h with
  | layout h => simpa [scan_nil] using scan_layout h [] p
  | @comment cs text h oneLine =>
    have hline := notNewline_of_oneLine oneLine
    have hstep : step '/' ('/' :: text) = .layout ('/' :: '/' :: text) [] := by
      rw [step_comment, List.takeWhile_eq_self_iff.2 hline, List.dropWhile_eq_nil_iff.2 hline]
    rw [scan_layout h, scan_of_layout hstep, scan_nil, Position.after_append]

/-- Layout begins with a blank, a line break or a slash. -/
def Parted (cs : List Char) : Prop := ∀ c ∈ cs.head?, c ∈ [' ', '\t', '\r', '\n', '/']

theorem Layout.parted {gap : List Char} (h : Layout gap) (hne : gap ≠ []) (rest : List Char) :
    Parted (gap ++ rest) := by
  intro c hc
  cases h with
  | nil => exact absurd rfl hne
  | blank hb =>
    cases hc
    exact List.mem_append_left ['/'] hb
  | comment =>
    cases hc
    simp

theorem Trailing.parted {cs : List Char} (h : Trailing cs) : Parted cs := by
  cases h with
  | @layout cs h =>
    cases cs with
    | nil => simp [Parted]
    | cons c cs => simpa using h.parted (by simp) []
  | @comment cs text h =>
    cases cs with
    | nil => simp [Parted]
    | cons c cs => exact h.parted (by simp) _

/-- What follows a lexeme in a laid out text begins with layout, or is nothing. -/
theorem LaidOut.parted {ls : List Lexeme} {gap rest : List Char} (h : LaidOut ls rest) (layout : Layout gap)
    (apart : ls ≠ [] → gap ≠ []) : Parted (gap ++ rest) := by
  by_cases hne : gap = []
  · subst hne
    cases h with
    | nil h => exact h.parted
    | cons => exact absurd rfl (apart (by simp))
  · exact layout.parted hne rest

theorem Parted.endsBefore {rest : List Char} (h : Parted rest) (l : Lexeme) : l.EndsBefore rest := by
  have stops : ∀ {p : Char → Bool}, [' ', '\t', '\r', '\n', '/'].any p = false → Stops p rest :=
    fun hp c hc => Bool.eq_false_iff.2 (List.any_eq_false.1 hp c (h c hc))
  cases l with
  | mark m => trivial
  | string content => trivial
  | symbol name => exact stops (by decide)
  | word name => exact stops (by decide)
  | query q => exact stops (by decide)
  | number numeral =>
    refine ⟨stops (by decide), ?_⟩
    rintro more rfl
    have := h '.' rfl
    simp at this

/-- Scanning a laid out text gives its lexemes and comes to its end. -/
theorem scan_laidOut {ls : List Lexeme} {cs : List Char} (h : LaidOut ls cs) (p : Position) :
    ∃ ts, scan p cs = .ok ts ∧ ts.tokens.map Token.lexeme = ls ∧ ts.stop = p.after cs := by
  induction h generalizing p with
  | nil h => exact ⟨_, scan_trailing h p, rfl, rfl⟩
  | @cons l ls cs gap rest spelling layout apart more ih =>
    obtain ⟨ts, hts, hlexemes, hstop⟩ := ih ((p.after cs).after gap)
    refine ⟨push ⟨l, p⟩ ts, ?_, by simp [push, hlexemes], by simp [push, hstop]⟩
    rw [scan_spelling spelling ((more.parted layout apart).endsBefore l), scan_layout layout, hts]
    rfl

theorem tokens_of_renders {ls : List Lexeme} {text : List Char} (h : Renders ls text) :
    ∃ ts, tokens text = .ok ts ∧ ts.tokens.map Token.lexeme = ls ∧ ts.stop = Position.start.after text := by
  obtain ⟨lead, body, hlead, hbody, rfl⟩ := h
  obtain ⟨ts, hts, hlexemes, hstop⟩ := scan_laidOut hbody (Position.start.after lead)
  exact ⟨ts, by rw [tokens, scan_layout hlead, hts], hlexemes, by rw [hstop, Position.after_append]⟩

end Appraisal.Submission
