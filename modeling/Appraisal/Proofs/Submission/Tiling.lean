import Appraisal.Proofs.Submission.Layout

/-! How lexemes make up a text. A lexeme is written as one of its spellings, or as a string in which some backslashes
    are not escaped. The scanner takes a lexeme exactly where it is written and the text does not go on with it
    (`step_eq_lexeme_iff`), so no longer lexeme of its family stands there (`longest_of_whole`). A text has tokens
    exactly if it is tiled by them and by layout (`scan_eq_ok_iff`), and is divided where one of them begins
    (`Tiled.split`). -/

namespace Appraisal.Submission
open Text Scan Numeral

/-! ### Written lexemes -/

/-- The characters of a lexeme in a text. -/
inductive Written : Lexeme → List Char → Prop
  | spelling {l : Lexeme} {cs : List Char} (h : Spelling l cs) : Written l cs
  | string {content cs : List Char} (h : StringBody content cs) :
      Written (.string (String.ofList content)) ('"' :: (cs ++ ['"']))

/-- The kinds of lexemes that are told apart by their characters: a query is a word. -/
inductive Family where
  | mark (m : Mark)
  | string
  | symbol
  | number
  | word
  deriving DecidableEq

def Lexeme.family : Lexeme → Family
  | .mark m => .mark m
  | .string _ => .string
  | .symbol _ => .symbol
  | .number _ => .number
  | .word _ | .query _ => .word

/-- The text after a lexeme does not go on with it. -/
def Lexeme.WholeBefore (rest : List Char) : Lexeme → Prop
  | .number numeral => ∀ n : Plain, n.chars = numeral.toList → Ends n rest
  | l => l.EndsBefore rest

theorem Lexeme.EndsBefore.whole {rest : List Char} {l : Lexeme} (h : l.EndsBefore rest) : l.WholeBefore rest := by
  cases l with
  | number numeral => exact fun n _ => ⟨h.1, fun _ => h.2⟩
  | mark m => exact h
  | string content => exact h
  | symbol name => exact h
  | word name => exact h
  | query q => exact h

theorem Ends.of_chars {n n' : Plain} {rest : List Char} (h : Ends n rest) (hchars : n'.chars = n.chars) :
    Ends n' rest := by
  have hfraction : n'.fraction.isSome = n.fraction.isSome := by rw [← contains_point, ← contains_point, hchars]
  refine ⟨h.digit, fun hf => h.point ?_⟩
  rw [hf] at hfraction
  exact Option.not_isSome_iff_eq_none.1 (hfraction ▸ Bool.false_ne_true)

namespace Lexeme.WholeBefore
variable {rest more a b : List Char} {l : Lexeme}

theorem of_append (h : l.WholeBefore (rest ++ more)) : l.WholeBefore rest := by
  cases l with
  | mark m => trivial
  | string content => trivial
  | symbol name => exact stops_of_append h
  | word name => exact stops_of_append h
  | query q => exact stops_of_append h
  | number numeral =>
    intro n hn
    obtain ⟨hdigit, hpoint⟩ := h n hn
    refine ⟨stops_of_append hdigit, ?_⟩
    rintro hf text rfl
    exact stops_of_append (hpoint hf _ List.cons_append)

/-- A character with which no lexeme goes on may follow, and anything after it. -/
theorem append_stop {c : Char} (h : l.WholeBefore rest) (hword : isWordChar c = false) (hpoint : c ≠ '.')
    (more : List Char) : l.WholeBefore (rest ++ c :: more) := by
  have hdigit : c.isDigit = false := by
    simp only [isWordChar, Char.isAlphanum, Bool.or_eq_false_iff] at hword
    exact hword.1.1.2
  cases l with
  | mark m => trivial
  | string content => trivial
  | symbol name => exact stops_append h hword more
  | word name => exact stops_append h hword more
  | query q => exact stops_append h hword more
  | number numeral =>
    intro n hn
    obtain ⟨hd, hp⟩ := h n hn
    refine ⟨stops_append hd hdigit more, fun hf text htext => ?_⟩
    cases rest with
    | nil => exact absurd (List.cons.inj htext).1 hpoint
    | cons d cs =>
      cases htext
      exact stops_append (hp hf cs rfl) hdigit more

/-- What comes after a semicolon makes no difference. -/
theorem after_semicolon (h : l.WholeBefore (a ++ b)) (ha : ';' ∈ a) (b' : List Char) : l.WholeBefore (a ++ b') := by
  obtain ⟨r, s, rfl⟩ := List.append_of_mem ha
  rw [List.append_assoc] at *
  exact h.of_append.append_stop rfl (by decide) (s ++ b')

/-- A line break after the rest of a text is not what a lexeme goes on with. -/
theorem append_line (h : l.WholeBefore rest) (more : List Char) : l.WholeBefore (rest ++ '\n' :: more) :=
  h.append_stop rfl (by decide) more

end Lexeme.WholeBefore

/-! ### What a step takes -/

theorem step_written {l : Lexeme} {cs rest : List Char} (h : Written l cs) (hw : l.WholeBefore rest) :
    ∃ d ds, cs = d :: ds ∧ step d (ds ++ rest) = .lexeme l cs rest := by
  cases h with
  | spelling h =>
    cases h with
    | number n => exact step_chars (hw n String.toList_ofList.symm)
    | mark m => exact step_spelling (.mark m) hw
    | string oneLine => exact step_spelling (.string oneLine) hw
    | symbol filled chars => exact step_spelling (.symbol filled chars) hw
    | word start chars noQuery => exact step_spelling (.word start chars noQuery) hw
    | query capitals => exact step_spelling (.query capitals) hw
  | string h =>
    refine ⟨_, _, rfl, ?_⟩
    rw [step_quote, stringPiece, List.append_assoc, List.singleton_append, stringBody_written h]

theorem wordLexeme_written {c : Char} {cs : List Char} (hc : isWordStart c = true)
    (hcs : ∀ d ∈ cs, isWordChar d = true) : Spelling (wordLexeme (c :: cs)) (c :: cs) := by
  unfold wordLexeme
  split
  · rename_i h
    exact .query (query?_eq_some_iff.1 h)
  · rename_i h
    refine .word hc hcs fun q hq => ?_
    rw [query?_eq_some_iff.2 hq] at h
    cases h

theorem wordLexeme_whole {word rest : List Char} (h : Stops isWordChar rest) :
    (wordLexeme word).WholeBefore rest := by
  unfold wordLexeme
  split <;> exact h

theorem written_of_step {c : Char} {cs taken rest : List Char} {l : Lexeme} (h : step c cs = .lexeme l taken rest) :
    Written l taken ∧ l.WholeBefore rest := by
  unfold step at h
  split at h
  · cases h
  split at h
  · cases h
  split at h
  · unfold stringPiece at h
    split at h
    · rename_i hbody
      cases h
      obtain ⟨cs, hcs, rfl, -⟩ := stringBody_eq_closed_iff.1 hbody
      exact ⟨.string hcs, trivial⟩
    · cases h
  split at h
  · unfold symbolPiece at h
    split at h
    · cases h
    · dsimp only at h
      split at h
      · cases h
      · rename_i hfilled
        cases h
        have hname : ∀ d ∈ cs.takeWhile isWordChar, isWordChar d = true := fun _ => List.mem_takeWhile_imp
        exact ⟨.spelling (.symbol (by simpa using hfilled) hname), stops_dropWhile cs⟩
  split at h
  · unfold numberPiece at h
    split at h
    · rename_i hsplit
      cases h
      obtain ⟨n, rfl, -, hends⟩ := splitNumeral_eq_some_iff.1 hsplit
      exact ⟨.spelling (.number n), fun n' hn' => Ends.of_chars hends (hn'.trans String.toList_ofList)⟩
    · cases h
  split at h
  · rename_i hstart
    cases h
    have hword : ∀ d ∈ cs.takeWhile isWordChar, isWordChar d = true := fun _ => List.mem_takeWhile_imp
    exact ⟨.spelling (wordLexeme_written hstart hword), wordLexeme_whole (stops_dropWhile cs)⟩
  · unfold markPiece at h
    split at h
    · rename_i m hm
      cases h
      rw [← Mark.char_of_ofChar? hm]
      exact ⟨.spelling (.mark m), trivial⟩
    · cases h

/-- The scanner takes a lexeme exactly where it is written and the text does not go on with it. -/
theorem step_eq_lexeme_iff {c : Char} {cs taken rest : List Char} {l : Lexeme} :
    step c cs = .lexeme l taken rest ↔ Written l taken ∧ l.WholeBefore rest ∧ taken ++ rest = c :: cs := by
  constructor
  · intro h
    have htaken := step_taken c cs
    rw [h] at htaken
    exact ⟨(written_of_step h).1, (written_of_step h).2, htaken.2⟩
  · rintro ⟨hwritten, hwhole, htext⟩
    obtain ⟨d, ds, rfl, hstep⟩ := step_written hwritten hwhole
    obtain ⟨rfl, rfl⟩ := List.cons_eq_cons.1 htext
    exact hstep

/-- A step over layout takes one blank, or a comment up to the end of its line. -/
theorem layout_of_step {c : Char} {cs taken rest : List Char} (h : step c cs = .layout taken rest) :
    (c ∈ [' ', '\t', '\r', '\n'] ∧ taken = [c] ∧ rest = cs) ∨
    ∃ text, '\n' ∉ text ∧ taken = '/' :: '/' :: text ∧ Stops notNewline rest := by
  unfold step at h
  split at h
  · rename_i hlayout
    cases h
    exact Or.inl ⟨by simpa [isLayout, or_assoc] using hlayout, rfl, rfl⟩
  split at h
  · rename_i hcomment
    obtain ⟨rfl, hhead⟩ := hcomment
    obtain ⟨cs, rfl⟩ := List.head?_eq_some_iff.1 hhead
    cases h
    refine Or.inr ⟨cs.takeWhile notNewline, fun hmem => ?_, rfl, stops_dropWhile ('/' :: cs)⟩
    have := List.mem_takeWhile_imp hmem
    cases this
  -- Everything else is a lexeme or a fault.
  split at h
  · unfold stringPiece at h
    split at h <;> cases h
  split at h
  · unfold symbolPiece at h
    split at h
    · cases h
    · dsimp only at h
      split at h <;> cases h
  split at h
  · unfold numberPiece at h
    split at h <;> cases h
  split at h
  · cases h
  · unfold markPiece at h
    split at h <;> cases h

/-! ### No longer lexeme -/

/-- What the characters of a family look like. -/
def Family.Shape : Family → List Char → Prop
  | .mark m, cs => cs = [m.char]
  | .string, cs => ∃ content body, StringBody content body ∧ cs = '"' :: (body ++ ['"'])
  | .symbol, cs => ∃ run, cs = '#' :: run ∧ ∀ c ∈ run, isWordChar c = true
  | .number, cs => ∃ n : Plain, n.chars = cs
  | .word, cs => ∃ c run, cs = c :: run ∧ ∀ d ∈ run, isWordChar d = true

theorem Written.shape {l : Lexeme} {cs : List Char} (h : Written l cs) : l.family.Shape cs := by
  cases h with
  | string h => exact ⟨_, _, h, rfl⟩
  | spelling h =>
    cases h with
    | mark m => rfl
    | string oneLine => exact ⟨_, _, stringBody_escaped oneLine, rfl⟩
    | symbol filled chars => exact ⟨_, rfl, chars⟩
    | number n => exact ⟨n, rfl⟩
    | word start chars noQuery => exact ⟨_, _, rfl, chars⟩
    | query capitals =>
      obtain ⟨d, ds, rfl, -, chars⟩ := word_of_query capitals
      exact ⟨d, ds, rfl, chars⟩

/-- The parts of a numeral that is written somewhere. -/
theorem exists_of_written_number {numeral : String} {cs : List Char} (h : Written (.number numeral) cs) :
    ∃ n : Plain, n.chars = cs ∧ n.chars = numeral.toList := by
  cases h with
  | spelling h =>
    cases h with
    | number n => exact ⟨n, rfl, String.toList_ofList.symm⟩

/-- Without their signs, a numeral at the head of the text is no longer than one that the text does not go on with. -/
theorem body_longest {n other : Plain} {rest : List Char} (hends : Ends n rest)
    (h : other.whole ++ other.tail <+: n.whole ++ (n.tail ++ rest)) :
    other.whole ++ other.tail <+: n.whole ++ n.tail := by
  obtain ⟨more, htext⟩ := h
  rw [List.append_assoc] at htext
  cases hf : other.fraction with
  | none =>
    have hwhole : other.whole <+: n.whole := run_longest hends.stops_tail other.whole_digits ⟨_, htext⟩
    simpa [Plain.tail, hf] using hwhole.trans (List.prefix_append _ n.tail)
  | some ds =>
    have htail : other.tail = '.' :: ds := by simp [Plain.tail, hf]
    have hwhole : other.whole = n.whole := by
      have hstop : Stops Char.isDigit (other.tail ++ more) := by simp [htail]
      rw [← takeWhile_run other.whole_digits hstop, htext, takeWhile_run n.whole_digits hends.stops_tail]
    rw [hwhole, List.append_cancel_left_eq, htail] at htext
    rw [hwhole, htail, List.prefix_append_right_inj]
    cases hn : n.fraction with
    | none =>
      -- The point would have to belong to the integer, as a digit follows it.
      obtain ⟨d, ds', rfl⟩ := List.exists_cons_of_ne_nil (other.fraction_ne_nil ds hf)
      have hrest : rest = '.' :: (d :: ds' ++ more) := by simpa [Plain.tail, hn] using htext.symm
      have hdigit := other.fraction_digits _ hf d (by simp)
      rw [stops_cons.1 (hends.point hn _ hrest)] at hdigit
      cases hdigit
    | some es =>
      have hes : ds ++ more = es ++ rest := by simpa [Plain.tail, hn] using htext
      simpa [Plain.tail, hn] using run_longest hends.digit (other.fraction_digits ds hf) ⟨more, hes⟩

/-- A numeral at the head of the text is no longer than one that the text does not go on with. -/
theorem chars_longest {n other : Plain} {rest : List Char} (hends : Ends n rest)
    (h : other.chars <+: n.chars ++ rest) : other.chars <+: n.chars := by
  obtain ⟨d, ds, hw, hd⟩ := n.exists_whole_cons
  obtain ⟨e, es, hw', he⟩ := other.exists_whole_cons
  cases hn : n.negative <;> cases ho : other.negative
  · rw [n.chars_of_positive hn, other.chars_of_positive ho] at *
    exact body_longest hends (by rwa [List.append_assoc] at h)
  · rw [n.chars_of_positive hn, other.chars_of_negative ho, hw, List.cons_append, List.cons_append] at h
    exact absurd (List.cons_prefix_cons.1 h).1.symm (ne_of_class hd rfl)
  · rw [n.chars_of_negative hn, other.chars_of_positive ho, hw', List.cons_append, List.cons_append] at h
    exact absurd (List.cons_prefix_cons.1 h).1 (ne_of_class he rfl)
  · rw [n.chars_of_negative hn, other.chars_of_negative ho] at *
    refine List.cons_prefix_cons.2 ⟨rfl, body_longest hends ?_⟩
    rw [List.cons_append, List.append_assoc] at h
    exact (List.cons_prefix_cons.1 h).2

/-- After the same first character, a run of word characters is no longer than one that the text does not go on with. -/
theorem word_longest {c d : Char} {run other rest : List Char} (hrest : Stops isWordChar rest)
    (hother : ∀ e ∈ other, isWordChar e = true) (h : d :: other <+: c :: run ++ rest) :
    (d :: other).length ≤ (c :: run).length := by
  have := (run_longest hrest hother (List.cons_prefix_cons.1 h).2).length_le
  simpa using this

/-- Where a lexeme is written that the text does not go on with, no longer characters of its family stand. -/
theorem longest_of_whole {l : Lexeme} {cs longer rest : List Char} (h : Written l cs) (hwhole : l.WholeBefore rest)
    (hlonger : l.family.Shape longer) (hhead : longer <+: cs ++ rest) : longer.length ≤ cs.length := by
  have hshape := h.shape
  cases l with
  | mark m =>
    rw [show cs = [m.char] from hshape, show longer = [m.char] from hlonger]
  | string s =>
    obtain ⟨content, body, hbody, rfl⟩ := hshape
    obtain ⟨content', body', hbody', rfl⟩ := hlonger
    obtain ⟨more, htext⟩ := hhead
    -- Both strings begin at the same quote, so the same quote closes them.
    have hclosed := stringBody_written hbody' more
    have htail : body' ++ '"' :: more = body ++ '"' :: rest := by simpa using htext
    rw [htail, stringBody_written hbody rest, Body.closed.injEq] at hclosed
    rw [hclosed.2.1]
  | symbol name =>
    obtain ⟨run, rfl, -⟩ := hshape
    obtain ⟨run', rfl, hrun'⟩ := hlonger
    exact word_longest hwhole hrun' hhead
  | number numeral =>
    obtain ⟨n, rfl, hn⟩ := exists_of_written_number h
    obtain ⟨n', rfl⟩ := hlonger
    exact (chars_longest (hwhole n hn) hhead).length_le
  | word name =>
    obtain ⟨c, run, rfl, -⟩ := hshape
    obtain ⟨d, run', rfl, hrun'⟩ := hlonger
    exact word_longest hwhole hrun' hhead
  | query q =>
    obtain ⟨c, run, rfl, -⟩ := hshape
    obtain ⟨d, run', rfl, hrun'⟩ := hlonger
    exact word_longest hwhole hrun' hhead

/-! ### Tiled texts -/

/-- A text that stands at a position is made of tokens, each after its layout, and of layout at the end. -/
inductive Tiled : Position → List Token → List Char → Prop
  | finish {p : Position} {cs : List Char} (h : Trailing cs) : Tiled p [] cs
  | token {p : Position} {l : Lexeme} {ts : List Token} {gap cs rest : List Char} (layout : Layout gap)
      (written : Written l cs) (whole : l.WholeBefore rest) (more : Tiled ((p.after gap).after cs) ts rest) :
      Tiled p (⟨l, p.after gap⟩ :: ts) (gap ++ (cs ++ rest))

theorem Layout.append {a b : List Char} (ha : Layout a) (hb : Layout b) : Layout (a ++ b) := by
  induction ha with
  | nil => exact hb
  | blank hc _ ih => exact .blank hc ih
  | comment oneLine _ ih =>
    rw [List.cons_append, List.cons_append, List.append_assoc, List.cons_append]
    exact .comment oneLine ih

theorem Trailing.before {gap cs : List Char} (h : Layout gap) (hcs : Trailing cs) : Trailing (gap ++ cs) := by
  cases hcs with
  | layout hcs => exact .layout (h.append hcs)
  | comment hcs oneLine =>
    rw [← List.append_assoc]
    exact .comment (h.append hcs) oneLine

/-- Layout at the end of a text ends with a line break after it. -/
theorem Trailing.layout_of_line {cs : List Char} (h : Trailing cs) : Layout (cs ++ ['\n']) := by
  have line : Layout ['\n'] := .blank (by decide) .nil
  cases h with
  | layout h => exact h.append line
  | comment h oneLine =>
    rw [List.append_assoc]
    exact h.append (.comment oneLine .nil)

namespace Tiled
variable {p : Position} {ts us : List Token} {gap cs a b : List Char}

theorem before (hgap : Layout gap) (h : Tiled (p.after gap) ts cs) : Tiled p ts (gap ++ cs) := by
  cases h with
  | finish h => exact .finish (.before hgap h)
  | token layout written whole more =>
    rw [← List.append_assoc, ← Position.after_append]
    refine .token (hgap.append layout) written whole ?_
    rwa [Position.after_append]

/-- A line break divides tokens, so texts on both sides of it are tiled apart. -/
theorem append (ha : Tiled p ts a) (hb : Tiled (p.after (a ++ ['\n'])) us b) : Tiled p (ts ++ us) (a ++ '\n' :: b) := by
  rw [List.append_cons]
  induction ha with
  | finish h => exact before h.layout_of_line hb
  | @token p l ts gap cs rest layout written whole more ih =>
    simp only [List.append_assoc, List.cons_append] at ih hb ⊢
    refine .token layout written (whole.append_line b) (ih ?_)
    simpa using hb

/-- The same lexemes tile the text wherever it stands. -/
theorem shift (h : Tiled p ts cs) (q : Position) :
    ∃ us, Tiled q us cs ∧ us.map Token.lexeme = ts.map Token.lexeme := by
  induction h generalizing q with
  | finish h => exact ⟨[], .finish h, rfl⟩
  | token layout written whole more ih =>
    obtain ⟨us, hus, hlexemes⟩ := ih _
    exact ⟨_, .token layout written whole hus, by rw [List.map_cons, List.map_cons, hlexemes]⟩

end Tiled

theorem scan_of_tiled {p : Position} {ts : List Token} {cs : List Char} (h : Tiled p ts cs) :
    scan p cs = .ok ⟨ts, p.after cs⟩ := by
  induction h with
  | finish h => exact scan_trailing h _
  | token layout written whole more ih =>
    obtain ⟨d, ds, rfl, hstep⟩ := step_written written whole
    rw [scan_layout layout, List.cons_append, scan_of_lexeme hstep, ih]
    simp [Except.map, push]

theorem tiled_of_scan {p : Position} {cs : List Char} {ts : TokenList} (h : scan p cs = .ok ts) :
    Tiled p ts.tokens cs := by
  -- The induction is on the length, as a comment is taken together with the line break after it.
  induction hn : cs.length using Nat.strong_induction_on generalizing p cs ts with
  | _ n ih =>
    subst hn
    cases cs with
    | nil =>
      rw [scan_nil] at h
      cases h
      exact .finish (.layout .nil)
    | cons c cs =>
      have htaken := step_taken c cs
      cases hstep : step c cs with
      | layout taken rest =>
        rw [hstep] at htaken
        rw [scan_of_layout hstep] at h
        have hshorter := length_lt_of_splits htaken
        rw [← htaken.2]
        rcases layout_of_step hstep with ⟨hblank, rfl, -⟩ | ⟨text, oneLine, rfl, hstop⟩
        · exact Tiled.before (.blank hblank .nil) (ih _ hshorter h rfl)
        · cases rest with
          | nil =>
            rw [scan_nil] at h
            cases h
            rw [List.append_nil]
            exact .finish (.comment .nil oneLine)
          | cons d rest =>
            obtain rfl : d = '\n' := by simpa [notNewline] using stops_cons.1 hstop
            rw [scan_of_layout (step_layout rfl rest)] at h
            have hline : Layout ('/' :: '/' :: (text ++ ['\n'])) := .comment oneLine .nil
            have := Tiled.before hline (ih _ (Nat.lt_of_succ_lt hshorter) (by simpa using h) rfl)
            simpa using this
      | lexeme l taken rest =>
        rw [hstep] at htaken
        rw [scan_of_lexeme hstep] at h
        obtain ⟨us, hus, rfl⟩ := Outcome.map_eq_ok_iff.1 h
        obtain ⟨hwritten, hwhole, htext⟩ := step_eq_lexeme_iff.1 hstep
        rw [← htext]
        exact .token .nil hwritten hwhole (ih _ (length_lt_of_splits htaken) hus rfl)
      | fault f before =>
        rw [scan_of_fault hstep] at h
        cases h

/-- A text has the tokens that tile it, and they are all that it has. -/
theorem scan_eq_ok_iff {p : Position} {cs : List Char} {ts : TokenList} :
    scan p cs = .ok ts ↔ Tiled p ts.tokens cs ∧ ts.stop = p.after cs := by
  constructor
  · intro h
    have htiled := tiled_of_scan h
    rw [scan_of_tiled htiled, Except.ok.injEq] at h
    exact ⟨htiled, (congrArg TokenList.stop h).symm⟩
  · rintro ⟨htiled, hstop⟩
    rw [scan_of_tiled htiled, ← hstop]

/-! ### Texts up to a token -/

/-- There is no token, or the last one is a semicolon. -/
def Ended (ts : List Token) : Prop := ∀ t ∈ ts.getLast?, t.lexeme = .mark .semicolon

namespace Tiled
variable {p : Position} {us vs : List Token} {t : Token} {text a b : List Char}

/-- A text is divided where a token begins. If the tokens before it end with a semicolon, they stay where the text goes on
    with other tokens. -/
theorem split (h : Tiled p (us ++ t :: vs) text) : ∃ a b, a ++ b = text ∧ t.position = p.after a ∧
    Tiled t.position (t :: vs) b ∧
    (Ended us → (us ≠ [] → ';' ∈ a) ∧ ∀ ws b', Tiled t.position ws b' → Tiled p (us ++ ws) (a ++ b')) := by
  induction us generalizing p text with
  | nil =>
    cases h with
    | @token p l ts gap cs rest layout written whole more =>
      exact ⟨gap, cs ++ rest, rfl, rfl, @Tiled.token _ _ _ [] _ _ .nil written whole more,
        fun _ => ⟨absurd rfl, fun ws b' hws => hws.before layout⟩⟩
  | cons u us ih =>
    cases h with
    | @token p l ts gap cs rest layout written whole more =>
      obtain ⟨a, b, rfl, hposition, hb, hended⟩ := ih more
      refine ⟨gap ++ (cs ++ a), b, by simp, by simp [hposition], hb, fun hlast => ?_⟩
      cases us with
      | nil =>
        -- A semicolon is whole before any text.
        obtain rfl : l = .mark .semicolon := hlast _ rfl
        have hsemicolon : cs = [';'] := written.shape
        refine ⟨fun _ => by simp [hsemicolon], fun ws b' hws => ?_⟩
        rw [List.append_assoc, List.append_assoc]
        exact .token layout written trivial ((hended nofun).2 ws b' hws)
      | cons u us =>
        -- Between this token and the other text there is a semicolon, so it does not see what comes after.
        obtain ⟨hmem, hother⟩ := hended fun t ht => hlast t (by rwa [List.getLast?_cons_cons])
        have hmem := hmem (List.cons_ne_nil u us)
        refine ⟨fun _ => List.mem_append_right _ (List.mem_append_right _ hmem), fun ws b' hws => ?_⟩
        rw [List.append_assoc, List.append_assoc]
        exact .token layout written (whole.after_semicolon hmem b') (hother ws b' hws)

theorem split_at (h : Tiled p (us ++ t :: vs) (a ++ b)) (hoffset : t.position.offset = p.offset + a.length) :
    Tiled t.position (t :: vs) b ∧
      (Ended us → ∀ ws b', Tiled t.position ws b' → Tiled p (us ++ ws) (a ++ b')) := by
  obtain ⟨a', b', htext, hposition, hb, hended⟩ := h.split
  have hlength : a'.length = a.length := by
    rw [hposition, Position.offset_after] at hoffset
    omega
  obtain ⟨rfl, rfl⟩ := List.append_inj htext hlength
  exact ⟨hb, fun hlast => (hended hlast).2⟩

theorem exists_head (h : Tiled p (t :: vs) text) (hoffset : t.position.offset = p.offset) :
    ∃ cs rest, text = cs ++ rest ∧ Written t.lexeme cs := by
  cases h with
  | @token p l ts gap cs rest layout written whole more =>
    have hgap : gap.length = 0 := by
      rw [Position.offset_after] at hoffset
      omega
    exact ⟨cs, rest, by rw [List.length_eq_zero_iff.1 hgap, List.nil_append], written⟩

end Tiled

/-! ### The lexemes of a text -/

/-- The text has the lexemes. -/
def Lexes (ls : List Lexeme) (text : List Char) : Prop := ∃ ts, tokens text = .ok ts ∧ ts.tokens.map Token.lexeme = ls

theorem lexes_iff_tiled {ls : List Lexeme} {text : List Char} (p : Position) :
    Lexes ls text ↔ ∃ ts, Tiled p ts text ∧ ts.map Token.lexeme = ls := by
  constructor
  · rintro ⟨ts, hts, rfl⟩
    exact (tiled_of_scan hts).shift p
  · rintro ⟨ts, hts, rfl⟩
    obtain ⟨us, hus, hlexemes⟩ := hts.shift .start
    exact ⟨_, scan_of_tiled hus, hlexemes⟩

theorem Tiled.lexes {p : Position} {ts : List Token} {text : List Char} (h : Tiled p ts text) :
    Lexes (ts.map Token.lexeme) text := (lexes_iff_tiled p).2 ⟨ts, h, rfl⟩

namespace Lexes
variable {l : Lexeme} {ls ms : List Lexeme} {gap cs rest a b : List Char}

theorem finish (h : Trailing cs) : Lexes [] cs := (lexes_iff_tiled .start).2 ⟨[], .finish h, rfl⟩

theorem before (hgap : Layout gap) (h : Lexes ls rest) : Lexes ls (gap ++ rest) := by
  obtain ⟨ts, hts, hlexemes⟩ := (lexes_iff_tiled (Position.start.after gap)).1 h
  exact (lexes_iff_tiled .start).2 ⟨ts, hts.before hgap, hlexemes⟩

theorem cons (written : Written l cs) (whole : l.WholeBefore rest) (h : Lexes ls rest) :
    Lexes (l :: ls) (cs ++ rest) := by
  obtain ⟨ts, hts, rfl⟩ := (lexes_iff_tiled (Position.start.after cs)).1 h
  exact (lexes_iff_tiled .start).2 ⟨_, @Tiled.token _ _ _ [] _ _ .nil written whole hts, rfl⟩

theorem append_line (ha : Lexes ls a) (hb : Lexes ms b) : Lexes (ls ++ ms) (a ++ '\n' :: b) := by
  obtain ⟨ts, hts, rfl⟩ := (lexes_iff_tiled .start).1 ha
  obtain ⟨us, hus, rfl⟩ := (lexes_iff_tiled (Position.start.after (a ++ ['\n']))).1 hb
  exact (lexes_iff_tiled .start).2 ⟨_, hts.append hus, by rw [List.map_append]⟩

end Lexes

end Appraisal.Submission
