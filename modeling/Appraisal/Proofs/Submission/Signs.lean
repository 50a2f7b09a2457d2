import Appraisal.Proofs.Submission.Bindings

/-! What selects the statement notation, by where it stands in a text. A text is searched from left to right with one bit
    of what stands before the place that is reached: whether a word character does, or a run of word characters with
    a letter in it. The signs that are found so are those that stand somewhere in the text (`detect_eq_iff_sign`). A
    program with a statement has the sign of its semicolon, so it is read as a program (`programs_not_diverted`). -/

namespace Appraisal.Submission.Dialect
open Text

/-- A sign of the statement notation stands in the text. -/
inductive Sign : List Char → Prop
  | semicolon {before after : List Char} : Sign (before ++ ';' :: after)
  /-- `CHECK` or `EVAL` in any case, with no word character before or after it. -/
  | query {before word after : List Char} {q : Query} (capitals : word.map Char.toUpper = q.name.toList)
      (start : ∀ c ∈ before.getLast?, isWord c = false) (finish : ∀ c ∈ after.head?, isWord c = false) :
      Sign (before ++ word ++ after)
  | symbol {before after : List Char} {c : Char} (h : isWord c = true) : Sign (before ++ '#' :: c :: after)
  /-- A dot between a run of word characters that may begin with digits and the first character of a name. -/
  | dotted {before run after : List Char} {c : Char} (words : ∀ d ∈ run, isWord d = true)
      (named : ∃ d ∈ run, isNameStart d = true) (h : isNameStart c = true) :
      Sign (before ++ run ++ '.' :: c :: after)

/-! ### Searching -/

theorem isWord_of_query {q : Query} {word : List Char} (h : word.map Char.toUpper = q.name.toList) :
    ∀ c ∈ word, isWord c = true := fun c hc => by
  simp [isWord, Char.isAlphanum, isAlpha_of_query h c hc]

/-- A query stands at the head of a text exactly if the longest run of word characters there is one. -/
theorem query?_takeWhile_iff {cs : List Char} : (Scan.query? (cs.takeWhile isWord)).isSome = true ↔
    ∃ word after, ∃ q : Query, cs = word ++ after ∧ word.map Char.toUpper = q.name.toList ∧ Stops isWord after := by
  rw [Option.isSome_iff_exists]
  constructor
  · rintro ⟨q, hq⟩
    exact ⟨_, _, q, List.takeWhile_append_dropWhile.symm, query?_eq_some_iff.1 hq, stops_dropWhile cs⟩
  · rintro ⟨word, after, q, rfl, capitals, finish⟩
    rw [takeWhile_run (isWord_of_query capitals) finish]
    exact ⟨q, query?_eq_some_iff.2 capitals⟩

theorem hasQueryWord_iff {joined : Bool} {cs : List Char} : hasQueryWord joined cs = true ↔
    ∃ before word after, ∃ q : Query, cs = before ++ word ++ after ∧ word.map Char.toUpper = q.name.toList ∧
      (before = [] → joined = false) ∧ (∀ c ∈ before.getLast?, isWord c = false) ∧ Stops isWord after := by
  induction cs generalizing joined with
  | nil =>
    refine iff_of_false Bool.false_ne_true ?_
    rintro ⟨before, word, after, q, hcs, capitals, -⟩
    obtain ⟨-, rfl, -⟩ : before = [] ∧ word = [] ∧ after = [] := by simpa using hcs.symm
    cases q <;> cases capitals
  | cons c cs ih =>
    rw [hasQueryWord, Bool.or_eq_true, Bool.and_eq_true, Bool.not_eq_true', query?_takeWhile_iff, ih]
    constructor
    · rintro (⟨hjoined, word, after, q, hcs, capitals, finish⟩ | ⟨before, word, after, q, rfl, capitals, hc, start, finish⟩)
      · exact ⟨[], word, after, q, hcs, capitals, fun _ => hjoined, by simp, finish⟩
      · refine ⟨c :: before, word, after, q, rfl, capitals, by simp, fun d hd => ?_, finish⟩
        cases before with
        | nil =>
          obtain rfl : c = d := by simpa using hd
          exact hc rfl
        | cons e before => exact start d (by simpa using hd)
    · rintro ⟨before, word, after, q, hcs, capitals, hjoined, start, finish⟩
      cases before with
      | nil => exact .inl ⟨hjoined rfl, word, after, q, hcs, capitals, finish⟩
      | cons d before =>
        obtain ⟨rfl, rfl⟩ := List.cons_eq_cons.1 hcs
        refine .inr ⟨before, word, after, q, rfl, capitals, ?_, fun e he => ?_, finish⟩
        · rintro rfl
          exact start c rfl
        · refine start e ?_
          cases before with
          | nil => cases he
          | cons f before => simpa using he

theorem hasSymbol_iff {cs : List Char} :
    hasSymbol cs = true ↔ ∃ before c after, cs = before ++ '#' :: c :: after ∧ isWord c = true := by
  induction cs with
  | nil => simp [hasSymbol]
  | cons d cs ih =>
    rw [hasSymbol, Bool.or_eq_true, ih]
    constructor
    · rintro (h | ⟨before, c, after, rfl, hc⟩)
      · cases cs with
        | nil => simp at h
        | cons c after =>
          obtain ⟨rfl, hc⟩ : d = '#' ∧ isWord c = true := by simpa using h
          exact ⟨[], c, after, rfl, hc⟩
      · exact ⟨d :: before, c, after, rfl, hc⟩
    · rintro ⟨before, c, after, hcs, hc⟩
      cases before with
      | nil =>
        cases hcs
        exact .inl (by simp [hc])
      | cons e before =>
        cases hcs
        exact .inr ⟨before, c, after, rfl, hc⟩

/-- Where `named` holds, a run of word characters with a letter in it ends before the text, and it may go on in the text
    up to the dot. -/
theorem hasDottedName_iff {named : Bool} {cs : List Char} : hasDottedName named cs = true ↔
    ∃ before run c after, cs = before ++ run ++ '.' :: c :: after ∧ (∀ d ∈ run, isWord d = true) ∧
      ((∃ d ∈ run, isNameStart d = true) ∨ before = [] ∧ named = true) ∧ isNameStart c = true := by
  induction cs generalizing named with
  | nil => simp [hasDottedName]
  | cons e cs ih =>
    rw [hasDottedName, Bool.or_eq_true, ih]
    constructor
    · rintro (h | ⟨before, run, c, after, rfl, words, hnamed, hc⟩)
      · cases cs with
        | nil => simp at h
        | cons c after =>
          obtain ⟨⟨hnamed, rfl⟩, hc⟩ : (named = true ∧ e = '.') ∧ isNameStart c = true := by simpa using h
          exact ⟨[], [], c, after, rfl, by simp, .inr ⟨rfl, hnamed⟩, hc⟩
      · rcases hnamed with hnamed | ⟨rfl, hnamed⟩
        · exact ⟨e :: before, run, c, after, rfl, words, .inl hnamed, hc⟩
        · obtain ⟨he, hnamed⟩ : isWord e = true ∧ (named = true ∨ isNameStart e = true) := by simpa using hnamed
          refine ⟨[], e :: run, c, after, rfl, List.forall_mem_cons.2 ⟨he, words⟩, ?_, hc⟩
          exact hnamed.elim (fun h => .inr ⟨rfl, h⟩) fun h => .inl ⟨e, List.mem_cons_self, h⟩
    · rintro ⟨before, run, c, after, hcs, words, hnamed, hc⟩
      cases before with
      | cons d before =>
        cases hcs
        exact .inr ⟨before, run, c, after, rfl, words, .inl (by simpa using hnamed), hc⟩
      | nil =>
        cases run with
        | nil =>
          cases hcs
          exact .inl (by simpa [hc] using hnamed)
        | cons d run =>
          cases hcs
          obtain ⟨he, words⟩ := List.forall_mem_cons.1 words
          refine .inr ⟨[], run, c, after, rfl, words, ?_, hc⟩
          simp only [List.mem_cons, exists_eq_or_imp, true_and] at hnamed ⊢
          rcases hnamed with (h | h) | h
          · exact .inr (by simp [he, h])
          · exact .inl h
          · exact .inr (by simp [he, h])

theorem selects_iff_sign {cs : List Char} : selects cs = true ↔ Sign cs := by
  rw [selects, Bool.or_eq_true, Bool.or_eq_true, Bool.or_eq_true, List.contains_iff_mem, hasQueryWord_iff, hasSymbol_iff,
    hasDottedName_iff]
  constructor
  · rintro (((h | h) | h) | h)
    · obtain ⟨before, after, rfl⟩ := List.append_of_mem h
      exact .semicolon
    · obtain ⟨before, word, after, q, rfl, capitals, -, start, finish⟩ := h
      exact .query capitals start finish
    · obtain ⟨before, c, after, rfl, hc⟩ := h
      exact .symbol hc
    · obtain ⟨before, run, c, after, rfl, words, hnamed, hc⟩ := h
      exact .dotted words (by simpa using hnamed) hc
  · intro h
    cases h with
    | semicolon => exact .inl (.inl (.inl (by simp)))
    | @query before word after q capitals start finish =>
      exact .inl (.inl (.inr ⟨before, word, after, q, rfl, capitals, fun _ => rfl, start, finish⟩))
    | symbol h => exact .inl (.inr ⟨_, _, _, rfl, h⟩)
    | dotted words named h => exact .inr ⟨_, _, _, _, rfl, words, .inl named, h⟩

theorem detect_eq_iff_sign {text : List Char} : detect text = .statements ↔ Sign text := by
  rw [detect_eq_statements_iff, selects_iff_sign]

/-! ### Programs -/

/-- Without a statement nothing is assigned and nothing asked. -/
theorem exists_of_ofProgram {v : Vocabulary} {text : List Char} {s : Submission} (h : ofProgram v text = .ok s)
    (hfilled : s.fields.entries ≠ [] ∨ s.seenQuery = true) : ∃ ss, Program.read text = .ok ss ∧ ss ≠ [] := by
  obtain ⟨ss, hss, rfl⟩ := Outcome.map_eq_ok_iff.1 h
  refine ⟨ss, hss, ?_⟩
  rintro rfl
  rcases hfilled with hfilled | hfilled
  · exact hfilled rfl
  · cases hfilled

/-- A program that assigns or asks something is read as what it says, and a text is in the statement notation exactly if
    a sign of that notation stands in it. -/
theorem programs_not_diverted (v : Vocabulary) (text : List Char) :
    (∀ s, ofProgram v text = .ok s → s.fields.entries ≠ [] ∨ s.seenQuery = true →
      detect text = .statements ∧ read v text = .ok s) ∧
    (detect text = .statements ↔ Sign text) := by
  refine ⟨fun s hs hfilled => ?_, detect_eq_iff_sign⟩
  obtain ⟨ss, hss, hne⟩ := exists_of_ofProgram hs hfilled
  have hdetect := detect_of_program hss hne
  exact ⟨hdetect, (read_of_statements hdetect).trans hs⟩

/-- A program of one query after a comment, and a dot after a run of word characters that no name begins. -/
theorem programs_not_diverted_asked :
    (∃ s, read .empty "// A: 1\nevaL ;".toList = .ok s ∧ s.dialect = .statements ∧ s.seenQuery = true) ∧
    detect "at 1.2b7_.c".toList = .statements := by
  have hlexes : Lexes (List.flatMap Grammar.Clause.lexemes [.query .eval]) "// A: 1\nevaL ;".toList :=
    Outcome.map_eq_ok_iff.1 (by decide +kernel)
  have hs := Grammar.ofProgram_eq_ok_iff_lexes (v := .empty).2 ⟨_, hlexes, by simp [Grammar.Clause.Within], rfl⟩
  obtain ⟨-, hread⟩ := (programs_not_diverted .empty _).1 _ hs (.inr rfl)
  refine ⟨⟨_, hread, rfl, rfl⟩, (programs_not_diverted .empty _).2.2 ?_⟩
  exact @Sign.dotted "at 1.".toList "2b7_".toList [] 'c' (List.all_eq_true.1 (by decide +kernel))
    (List.any_eq_true.1 (by decide +kernel)) (by decide +kernel)

end Appraisal.Submission.Dialect
