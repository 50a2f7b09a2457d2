import Appraisal.Number.Numeral
import Appraisal.Proofs.Number.Plain
import Appraisal.Submission.Token.Scan

/-! Steps of the scanner. The first character decides what a step takes, as the classes of characters exclude one
    another: one lemma for each class says what the step is. A numeral is taken as far as it goes
    (`splitNumeral_eq_some_iff`), so every number that the scanner takes on its way is a plain numeral
    (`plain_of_takes`), and a string up to the quote that closes it (`stringBody_eq_closed_iff`). -/

namespace Appraisal.Submission.Scan
open Text Numeral

/-! ### Numerals -/

/-- A numeral does not go on in the text after it: no digit follows, and to an integer no point with a digit. -/
structure Ends (n : Plain) (rest : List Char) : Prop where
  digit : Stops Char.isDigit rest
  point : n.fraction = none → ∀ more, rest = '.' :: more → Stops Char.isDigit more

/-- The digits before the point end where the rest of the numeral begins. -/
theorem Ends.stops_tail {n : Plain} {rest : List Char} (h : Ends n rest) : Stops Char.isDigit (n.tail ++ rest) := by
  cases hf : n.fraction with
  | none => simpa [Plain.tail, hf] using h.digit
  | some ds => simp [Plain.tail, hf]

theorem splitUnsigned_body {n : Plain} {rest : List Char} (h : Ends n rest) :
    splitUnsigned (n.whole ++ n.tail ++ rest) = some (n.whole ++ n.tail, rest) := by
  unfold splitUnsigned
  rw [List.append_assoc, takeWhile_run n.whole_digits h.stops_tail, dropWhile_run n.whole_digits h.stops_tail]
  simp only [List.isEmpty_eq_false_iff.2 n.whole_ne_nil, Bool.false_eq_true, if_false]
  cases hf : n.fraction with
  | none =>
    simp only [Plain.tail, hf, Option.elim_none, List.nil_append, List.append_nil]
    split
    · rename_i d more
      have := stops_cons.1 (h.point hf _ rfl)
      rw [if_neg (by simp [this])]
    · rfl
  | some ds =>
    have hds := n.fraction_digits ds hf
    obtain ⟨d, ds, rfl⟩ := List.exists_cons_of_ne_nil (n.fraction_ne_nil ds hf)
    simp only [Plain.tail, hf, Option.elim_some, List.cons_append, hds d (by simp), if_true]
    rw [← List.cons_append, takeWhile_run hds h.digit, dropWhile_run hds h.digit]

theorem splitNumeral_chars {n : Plain} {rest : List Char} (h : Ends n rest) :
    splitNumeral (n.chars ++ rest) = some (n.chars, rest) := by
  cases hn : n.negative
  · obtain ⟨d, ds, hw, hd⟩ := n.exists_whole_cons
    rw [n.chars_of_positive hn, ← splitUnsigned_body h, hw]
    have := ne_of_class hd (d := '-') rfl
    unfold splitNumeral
    split <;> simp_all
  · rw [n.chars_of_negative hn, List.cons_append, splitNumeral, splitUnsigned_body h]
    rfl

/-- What is split off without a sign is the body of a plain numeral. -/
theorem exists_body_of_splitUnsigned {cs numeral rest : List Char} (h : splitUnsigned cs = some (numeral, rest))
    (negative : Bool) : ∃ n : Plain, n.negative = negative ∧ n.whole ++ n.tail = numeral ∧ Ends n rest := by
  unfold splitUnsigned at h
  simp only at h
  have hwhole : ∀ c ∈ cs.takeWhile Char.isDigit, c.isDigit = true := fun _ => List.mem_takeWhile_imp
  have hdrop := stops_dropWhile (p := Char.isDigit) cs
  split at h
  · cases h
  · rename_i hne
    rw [List.isEmpty_iff] at hne
    split at h
    · rename_i d more hd
      split at h
      · rename_i hdigit
        cases h
        refine ⟨⟨negative, _, some ((d :: more).takeWhile Char.isDigit), hne, hwhole, ?_, ?_⟩, rfl, rfl, ?_, ?_⟩
        · rintro ds ⟨⟩
          simp [hdigit]
        · rintro ds ⟨⟩ c hc
          exact List.mem_takeWhile_imp hc
        · exact stops_dropWhile _
        · intro hf
          cases hf
      · rename_i hdigit
        cases h
        refine ⟨⟨negative, _, none, hne, hwhole, by simp, by simp⟩, rfl, List.append_nil _, hd ▸ hdrop, ?_⟩
        rintro - more' ⟨⟩
        simpa using hdigit
    · rename_i hnot
      cases h
      refine ⟨⟨negative, _, none, hne, hwhole, by simp, by simp⟩, rfl, List.append_nil _, hdrop, ?_⟩
      intro _ more hmore
      cases more with
      | nil => exact stops_nil
      | cons d more => exact absurd hmore (hnot d more)

/-- The scanner splits off a plain numeral, as far as it goes. -/
theorem splitNumeral_eq_some_iff {cs numeral rest : List Char} :
    splitNumeral cs = some (numeral, rest) ↔ ∃ n : Plain, n.chars = numeral ∧ n.chars ++ rest = cs ∧ Ends n rest := by
  constructor
  · intro h
    suffices hn : ∃ n : Plain, n.chars = numeral ∧ Ends n rest by
      obtain ⟨n, rfl, he⟩ := hn
      exact ⟨n, rfl, (splitNumeral_splits h).2, he⟩
    unfold splitNumeral at h
    split at h
    · obtain ⟨⟨body, rest'⟩, hp, he⟩ := Option.map_eq_some_iff.1 h
      cases he
      obtain ⟨n, hneg, rfl, he⟩ := exists_body_of_splitUnsigned hp true
      exact ⟨n, n.chars_of_negative hneg, he⟩
    · obtain ⟨n, hneg, rfl, he⟩ := exists_body_of_splitUnsigned h false
      exact ⟨n, n.chars_of_positive hneg, he⟩
  · rintro ⟨n, rfl, rfl, he⟩
    exact splitNumeral_chars he

/-! ### Strings -/

/-- The content of a string and the characters that stand for it between the quotes. A quote or a backslash is escaped
    by a backslash; before any other character a backslash stands for itself. -/
inductive StringBody : List Char → List Char → Prop
  | nil : StringBody [] []
  | plain {c : Char} {content cs : List Char} (quote : c ≠ '"') (slash : c ≠ '\\') (newline : c ≠ '\n')
      (more : StringBody content cs) : StringBody (c :: content) (c :: cs)
  | escape {c : Char} {content cs : List Char} (h : c = '"' ∨ c = '\\') (more : StringBody content cs) :
      StringBody (c :: content) ('\\' :: c :: cs)
  | slash {d : Char} {content cs : List Char} (quote : d ≠ '"') (slash : d ≠ '\\') (more : StringBody content (d :: cs)) :
      StringBody ('\\' :: content) ('\\' :: d :: cs)

theorem stringBody_written {content cs : List Char} (h : StringBody content cs) (rest : List Char) :
    stringBody (cs ++ '"' :: rest) = .closed content (cs ++ ['"']) rest := by
  induction h with
  | nil => rfl
  | plain quote slash newline more ih =>
    rw [List.cons_append, stringBody, ih]
    · rfl
    all_goals simp_all
  | escape hc more ih => rcases hc with rfl | rfl <;> simp [stringBody, ih, Body.prepend]
  | slash quote slash more ih =>
    rw [List.cons_append] at ih
    rw [List.cons_append, List.cons_append, stringBody, ih]
    · rfl
    all_goals simp_all

theorem exists_of_stringBody {text content taken rest : List Char} (h : stringBody text = .closed content taken rest) :
    ∃ cs, StringBody content cs ∧ taken = cs ++ ['"'] := by
  -- A character is put in front of the body of what follows it.
  have prepended : ∀ {c : Char} {front content taken : List Char} {body : Body},
      body.prepend c front = .closed content taken rest →
      ∃ more tail, body = .closed more tail rest ∧ content = c :: more ∧ taken = front ++ tail := by
    intro c front content taken body h
    cases body with
    | closed more tail rest' =>
      cases h
      exact ⟨more, tail, rfl, rfl, rfl⟩
    | unclosed before => cases h
  fun_induction stringBody text generalizing content taken with
  | case1 => cases h
  | case2 =>
    cases h
    exact ⟨[], .nil, rfl⟩
  | case3 => cases h
  | case4 text ih =>
    obtain ⟨more, tail, hbody, rfl, rfl⟩ := prepended h
    obtain ⟨cs, hcs, rfl⟩ := ih hbody
    exact ⟨_, .escape (Or.inl rfl) hcs, rfl⟩
  | case5 text ih =>
    obtain ⟨more, tail, hbody, rfl, rfl⟩ := prepended h
    obtain ⟨cs, hcs, rfl⟩ := ih hbody
    exact ⟨_, .escape (Or.inr rfl) hcs, rfl⟩
  | case6 c text hquote hnewline hescape hslash ih =>
    obtain ⟨more, tail, hbody, rfl, rfl⟩ := prepended h
    obtain ⟨cs, hcs, rfl⟩ := ih hbody
    have htext : cs ++ '"' :: rest = text := by
      have := stringBody_splits text
      rw [hbody] at this
      simpa using this
    by_cases hc : c = '\\'
    · subst hc
      cases cs with
      | nil => exact absurd htext.symm (hescape _ rfl)
      | cons d ds =>
        refine ⟨_, .slash ?_ ?_ hcs, rfl⟩
        · rintro rfl
          exact hescape _ rfl htext.symm
        · rintro rfl
          exact hslash _ rfl htext.symm
    · exact ⟨_, .plain hquote hc hnewline hcs, rfl⟩

theorem stringBody_eq_closed_iff {text content taken rest : List Char} :
    stringBody text = .closed content taken rest ↔
      ∃ cs, StringBody content cs ∧ cs ++ ['"'] = taken ∧ cs ++ '"' :: rest = text := by
  constructor
  · intro h
    obtain ⟨cs, hcs, rfl⟩ := exists_of_stringBody h
    have htext := stringBody_splits text
    rw [h] at htext
    exact ⟨cs, hcs, rfl, by simpa using htext⟩
  · rintro ⟨cs, hcs, rfl, rfl⟩
    exact stringBody_written hcs rest

/-! ### One step by its first character -/

/-- A character that is neither layout nor a slash, a quote or a hash begins a number, a word or a mark. -/
theorem step_of_class {p : Char → Bool} {c : Char} (h : p c = true)
    (hp : [' ', '\t', '\r', '\n', '/', '"', '#'].any p = false) (cs : List Char) :
    step c cs = if isNumberStart c then numberPiece (c :: cs)
      else if isWordStart c then
        .lexeme (wordLexeme (c :: cs.takeWhile isWordChar)) (c :: cs.takeWhile isWordChar) (cs.dropWhile isWordChar)
      else markPiece c cs := by
  have other : ∀ d ∈ [' ', '\t', '\r', '\n', '/', '"', '#'], c ≠ d := fun d hd =>
    ne_of_class h (Bool.eq_false_iff.2 (List.any_eq_false.1 hp d hd))
  simp only [List.forall_mem_cons, List.not_mem_nil, false_imp_iff, implies_true, and_true] at other
  obtain ⟨hspace, htab, hreturn, hnewline, hslash, hquote, hhash⟩ := other
  have hlayout : isLayout c = false := by simp [isLayout, hspace, htab, hreturn, hnewline]
  simp only [step, hlayout, hslash, hquote, hhash, Bool.false_eq_true, false_and, if_false]

theorem isNumberStart_eq_false {c : Char} (h : isWordStart c = true) : isNumberStart c = false := by
  have hminus := ne_of_class h (d := '-') rfl
  have hdigit : c.isDigit = false := by
    rw [Bool.eq_false_iff]
    intro hd
    have hc := Char.isDigit_iff_toNat.1 hd
    have h9 : '9'.toNat = 57 := rfl
    have halpha : c.isAlpha = (decide ('A'.val ≤ c.val ∧ c.val ≤ 'Z'.val) ||
        (decide ('a'.val ≤ c.val) && decide (c.val ≤ 'z'.val))) := rfl
    simp only [isWordStart, halpha, Bool.or_eq_true, Bool.and_eq_true, decide_eq_true_eq, UInt32.le_iff_toNat_le,
      Char.toNat_val] at h
    rcases h with (⟨h, -⟩ | ⟨h, -⟩) | rfl
    · have : 'A'.toNat = 65 := rfl
      omega
    · have : 'a'.toNat = 97 := rfl
      omega
    · cases hd
  simp [isNumberStart, hminus, hdigit]

theorem step_layout {c : Char} (h : isLayout c = true) (cs : List Char) : step c cs = .layout [c] cs := if_pos h

theorem step_comment (cs : List Char) : step '/' ('/' :: cs) =
    .layout ('/' :: '/' :: cs.takeWhile notNewline) (cs.dropWhile notNewline) := rfl

theorem step_quote (cs : List Char) : step '"' cs = stringPiece cs := rfl

theorem step_hash (cs : List Char) : step '#' cs = symbolPiece cs := rfl

theorem step_mark (m : Mark) (cs : List Char) : step m.char cs = .lexeme (.mark m) [m.char] cs := by
  cases m <;> rfl

theorem step_number {c : Char} (h : isNumberStart c = true) (cs : List Char) : step c cs = numberPiece (c :: cs) := by
  rw [step_of_class h (by decide), if_pos h]

theorem step_word {c : Char} (h : isWordStart c = true) (cs : List Char) : step c cs =
    .lexeme (wordLexeme (c :: cs.takeWhile isWordChar)) (c :: cs.takeWhile isWordChar) (cs.dropWhile isWordChar) := by
  rw [step_of_class h (by decide), isNumberStart_eq_false h, if_neg Bool.false_ne_true, if_pos h]

/-! ### Lexemes on the way -/

/-- On its way through the text the scanner takes the lexeme, whether it comes to the end or to a fault after it. -/
inductive Takes : List Char → Lexeme → Prop
  | here {c : Char} {cs taken rest : List Char} {l : Lexeme} (step : step c cs = .lexeme l taken rest) :
      Takes (c :: cs) l
  | afterLayout {c : Char} {cs taken rest : List Char} {l : Lexeme} (step : step c cs = .layout taken rest)
      (more : Takes rest l) : Takes (c :: cs) l
  | afterLexeme {c : Char} {cs taken rest : List Char} {k l : Lexeme} (step : step c cs = .lexeme k taken rest)
      (more : Takes rest l) : Takes (c :: cs) l

namespace Takes
variable {c : Char} {cs taken rest : List Char} {k l : Lexeme}

theorem of_layout (h : step c cs = .layout taken rest) : Takes (c :: cs) l ↔ Takes rest l := by
  refine ⟨fun htakes => ?_, .afterLayout h⟩
  cases htakes with
  | here step =>
    rw [h] at step
    cases step
  | afterLayout step more =>
    rw [h] at step
    cases step
    exact more
  | afterLexeme step more =>
    rw [h] at step
    cases step

theorem of_lexeme (h : step c cs = .lexeme k taken rest) : Takes (c :: cs) l ↔ l = k ∨ Takes rest l := by
  constructor
  · intro htakes
    cases htakes with
    | here step =>
      rw [h] at step
      cases step
      exact .inl rfl
    | afterLayout step more =>
      rw [h] at step
      cases step
    | afterLexeme step more =>
      rw [h] at step
      cases step
      exact .inr more
  · rintro (rfl | more)
    · exact .here h
    · exact .afterLexeme h more

/-- In a text without a fault the scanner takes the lexemes of its tokens. -/
theorem iff_mem_of_scan {p : Position} {ts : TokenList} (h : scan p cs = .ok ts) :
    Takes cs l ↔ l ∈ ts.tokens.map Token.lexeme := by
  fun_induction scan p cs generalizing ts with
  | case1 p =>
    cases h
    exact ⟨nofun, nofun⟩
  | case2 p c cs taken rest hstep ih => rw [of_layout hstep, ih h]
  | case3 p c cs k taken rest hstep ih =>
    obtain ⟨us, hus, rfl⟩ := Outcome.map_eq_ok_iff.1 h
    rw [of_lexeme hstep, ih hus]
    exact List.mem_cons.symm
  | case4 p c cs f before hstep => cases h

end Takes

/-! ### Numbers among the lexemes -/

/-- The lexeme is no number, or a plain numeral. -/
def PlainNumber (l : Lexeme) : Prop := ∀ numeral, l = .number numeral → ∃ n : Plain, n.chars = numeral.toList

theorem plainNumber_of_step {c : Char} {cs taken rest : List Char} {l : Lexeme}
    (h : step c cs = .lexeme l taken rest) : PlainNumber l := by
  rintro numeral rfl
  by_cases hc : isNumberStart c = true
  · rw [step_number hc, numberPiece] at h
    split at h
    · rename_i chars rest' hsplit
      cases h
      obtain ⟨n, rfl, -, -⟩ := splitNumeral_eq_some_iff.1 hsplit
      exact ⟨n, String.toList_ofList.symm⟩
    · cases h
  · have hword : ∀ w, wordLexeme w ≠ .number numeral := by
      intro w
      unfold wordLexeme
      split <;> simp
    simp only [step, hc, stringPiece, symbolPiece, markPiece] at h
    repeat' split at h
    all_goals simp_all

theorem plain_of_takes {cs : List Char} {l : Lexeme} (h : Takes cs l) : PlainNumber l := by
  induction h with
  | here step => exact plainNumber_of_step step
  | afterLayout _ _ ih => exact ih
  | afterLexeme _ _ ih => exact ih

/-- Every number among the tokens of a text is a plain numeral. -/
theorem plain_of_mem_tokens {text : List Char} {ts : TokenList} (h : tokens text = .ok ts) :
    ∀ t ∈ ts.tokens, PlainNumber t.lexeme :=
  fun _ ht => plain_of_takes ((Takes.iff_mem_of_scan h).2 (List.mem_map_of_mem ht))

end Appraisal.Submission.Scan
