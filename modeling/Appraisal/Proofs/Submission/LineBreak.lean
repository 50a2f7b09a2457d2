import Appraisal.Proofs.Submission.Tiling

/-! Texts one below the other. A line break ends whatever the scanner is at, a fault as well as a lexeme, just as the
    end of the text does (`step_append_line`). So the text above is scanned as if nothing followed, and the text below
    as if it stood alone, except that its lines and offsets count from further on (`tokens_append_line`). -/

namespace Appraisal.Submission
open Text Scan

/-! ### Positions -/

/-- The place in a text, where the text stands in the lines below `above`. -/
def Position.below (above : List Char) (p : Position) : Position :=
  ⟨p.line + 1 + above.count '\n', p.column, p.offset + above.length + 1⟩

def Token.below (above : List Char) (t : Token) : Token := ⟨t.lexeme, t.position.below above⟩

def Scan.Failure.below (above : List Char) (f : Failure) : Failure := ⟨f.fault, f.position.below above⟩

namespace Position

theorem line_after (p : Position) (cs : List Char) : (p.after cs).line = p.line + cs.count '\n' := by
  induction cs generalizing p with
  | nil => rfl
  | cons c cs ih =>
    rw [after_cons, ih, next]
    by_cases hc : c = '\n'
    · subst hc
      rw [if_pos rfl, List.count_cons_self, Nat.add_assoc, Nat.add_comm 1]
    · rw [if_neg hc, List.count_cons_of_ne hc]

theorem below_next (above : List Char) (p : Position) (c : Char) : (p.below above).next c = (p.next c).below above := by
  unfold next
  split
  · simp only [below, Nat.add_right_comm]
  · simp only [below, Nat.add_right_comm]

theorem below_after (above : List Char) (p : Position) (cs : List Char) :
    (p.below above).after cs = (p.after cs).below above := by
  induction cs generalizing p with
  | nil => rfl
  | cons c cs ih => rw [after_cons, below_next, ih, after_cons]

/-- The line below a text begins where a text begins. -/
theorem next_line (above : List Char) : (start.after above).next '\n' = start.below above := by
  rw [next, if_pos rfl, line_after, offset_after]
  simp only [start, below, Nat.add_right_comm]

end Position

/-- Where a text stands only moves its tokens, or its fault. -/
theorem scan_below (above : List Char) (p : Position) (cs : List Char) :
    scan (p.below above) cs = match scan p cs with
      | .error f => .error (f.below above)
      | .ok ts => .ok ⟨ts.tokens.map (Token.below above), ts.stop.below above⟩ := by
  fun_induction scan p cs with
  | case1 p => rw [scan_nil]; rfl
  | case2 p c cs taken rest hstep ih => rw [scan_of_layout hstep, Position.below_after, ih]
  | case3 p c cs l taken rest hstep ih =>
    rw [scan_of_lexeme hstep, Position.below_after, ih]
    cases scan (p.after taken) rest <;> rfl
  | case4 p c cs f before hstep =>
    rw [scan_of_fault hstep, Position.below_after]
    rfl

/-! ### A line break after a piece -/

namespace Scan
variable (b : List Char)

/-- The same body where a line break and `b` follow the text. -/
def Body.appendLine : Body → Body
  | .closed content taken rest => .closed content taken (rest ++ '\n' :: b)
  | .unclosed before => .unclosed before

/-- The same piece where a line break and `b` follow the text. -/
def Piece.appendLine : Piece → Piece
  | .layout taken rest => .layout taken (rest ++ '\n' :: b)
  | .lexeme l taken rest => .lexeme l taken (rest ++ '\n' :: b)
  | .fault f before => .fault f before

theorem head?_append_line {d : Char} (hd : d ≠ '\n') (cs : List Char) :
    (cs ++ '\n' :: b).head? = some d ↔ cs.head? = some d := by
  cases cs with
  | nil => simp [hd.symm]
  | cons c cs => rfl

theorem Body.prepend_appendLine (c : Char) (front : List Char) (body : Body) :
    (body.appendLine b).prepend c front = (body.prepend c front).appendLine b := by
  cases body <;> rfl

/-- A string is open at a line break as it is at the end, also after a backslash. -/
theorem stringBody_append_line (cs : List Char) : stringBody (cs ++ '\n' :: b) = (stringBody cs).appendLine b := by
  fun_induction stringBody cs with
  | case1 => rfl
  | case2 => rfl
  | case3 => rfl
  | case4 rest ih => rw [← Body.prepend_appendLine, ← ih]; rfl
  | case5 rest ih => rw [← Body.prepend_appendLine, ← ih]; rfl
  | case6 c rest hquote hnewline hescape hslash ih =>
    rw [← Body.prepend_appendLine, ← ih, List.cons_append, stringBody]
    · exact hquote
    · exact hnewline
    -- What a backslash escapes stands in the text: the line break is neither a quote nor a backslash.
    · rintro more rfl htext
      have hhead : rest.head? = some '"' := (head?_append_line b (by decide) rest).1 (by rw [htext]; rfl)
      obtain ⟨ds, rfl⟩ := List.head?_eq_some_iff.1 hhead
      exact hescape ds rfl rfl
    · rintro more rfl htext
      have hhead : rest.head? = some '\\' := (head?_append_line b (by decide) rest).1 (by rw [htext]; rfl)
      obtain ⟨ds, rfl⟩ := List.head?_eq_some_iff.1 hhead
      exact hslash ds rfl rfl

theorem stringPiece_append_line (cs : List Char) : stringPiece (cs ++ '\n' :: b) = (stringPiece cs).appendLine b := by
  unfold stringPiece
  rw [stringBody_append_line]
  cases stringBody cs <;> rfl

theorem symbolPiece_append_line (cs : List Char) : symbolPiece (cs ++ '\n' :: b) = (symbolPiece cs).appendLine b := by
  unfold symbolPiece
  have hdirective := head?_append_line b (show '!' ≠ '\n' by decide) cs
  have hline : isWordChar '\n' = false := rfl
  simp only [hdirective, takeWhile_append_stop hline, dropWhile_append_stop hline]
  split
  · rfl
  split <;> rfl

theorem splitUnsigned_append_line (cs : List Char) :
    splitUnsigned (cs ++ '\n' :: b) = (splitUnsigned cs).map fun p => (p.1, p.2 ++ '\n' :: b) := by
  have hline : Char.isDigit '\n' = false := rfl
  unfold splitUnsigned
  simp only [takeWhile_append_stop hline, dropWhile_append_stop hline]
  split
  · rfl
  · rcases cs.dropWhile Char.isDigit with _ | ⟨c, _ | ⟨d, more⟩⟩
    · rfl
    -- A point at the end of the text has no digit behind it there, and none before the line break.
    · by_cases hc : c = '.'
      · subst hc
        rfl
      · simp [hc]
    · by_cases hc : c = '.'
      · subst hc
        by_cases hd : d.isDigit
        · simp only [hd, if_true, Option.map_some]
          rw [← takeWhile_append_stop hline (d :: more) b, ← dropWhile_append_stop hline (d :: more) b]
          simp only [List.cons_append, hd, if_true]
        · simp [hd]
      · simp [hc]

theorem splitNumeral_append_line (cs : List Char) :
    splitNumeral (cs ++ '\n' :: b) = (splitNumeral cs).map fun p => (p.1, p.2 ++ '\n' :: b) := by
  cases cs with
  | nil => rfl
  | cons c cs =>
    by_cases hc : c = '-'
    · subst hc
      rw [List.cons_append, splitNumeral, splitUnsigned_append_line, splitNumeral, Option.map_map, Option.map_map]
      rfl
    · have hsplit : ∀ text, splitNumeral (c :: text) = splitUnsigned (c :: text) := by simp [splitNumeral, hc]
      rw [List.cons_append, hsplit, hsplit, ← List.cons_append, splitUnsigned_append_line]

theorem numberPiece_append_line (cs : List Char) : numberPiece (cs ++ '\n' :: b) = (numberPiece cs).appendLine b := by
  unfold numberPiece
  rw [splitNumeral_append_line]
  cases splitNumeral cs <;> rfl

theorem markPiece_append_line (c : Char) (cs : List Char) :
    markPiece c (cs ++ '\n' :: b) = (markPiece c cs).appendLine b := by
  unfold markPiece
  cases Mark.ofChar? c <;> rfl

/-- The scanner does the same before a line break as at the end of the text. -/
theorem step_append_line (c : Char) (cs : List Char) : step c (cs ++ '\n' :: b) = (step c cs).appendLine b := by
  have hcomment := head?_append_line b (show '/' ≠ '\n' by decide) cs
  have hline : notNewline '\n' = false := rfl
  have hword : isWordChar '\n' = false := rfl
  unfold step
  rw [← List.cons_append, stringPiece_append_line, symbolPiece_append_line, numberPiece_append_line,
    markPiece_append_line]
  simp only [hcomment, takeWhile_append_stop hline, dropWhile_append_stop hline, takeWhile_append_stop hword,
    dropWhile_append_stop hword]
  repeat' split
  all_goals rfl

end Scan

/-! ### Whole texts -/

/-- Scanning goes on below the line break from the place where the text above it ends. -/
theorem scan_append_line (p : Position) (a b : List Char) :
    scan p (a ++ '\n' :: b) = match scan p a with
      | .error f => .error f
      | .ok ts => (scan (ts.stop.next '\n') b).map fun us => ⟨ts.tokens ++ us.tokens, us.stop⟩ := by
  -- Every step over `a` is the same step before the line break, which is then a step over layout.
  fun_induction scan p a with
  | case1 p =>
    rw [List.nil_append, scan_of_layout (step_layout rfl b)]
    change scan (p.next '\n') b = (scan (p.next '\n') b).map fun us => us
    cases scan (p.next '\n') b <;> rfl
  | case2 p c cs taken rest hstep ih =>
    have hline := step_append_line b c cs
    rw [hstep] at hline
    rw [List.cons_append, scan_of_layout hline, ih]
  | case3 p c cs l taken rest hstep ih =>
    have hline := step_append_line b c cs
    rw [hstep] at hline
    rw [List.cons_append, scan_of_lexeme hline, ih]
    cases scan (p.after taken) rest with
    | error f => rfl
    | ok ts =>
      have hstop : (push ⟨l, p⟩ ts).stop = ts.stop := rfl
      simp only [Except.map, hstop]
      cases scan (ts.stop.next '\n') b <;> rfl
  | case4 p c cs f before hstep =>
    have hline := step_append_line b c cs
    rw [hstep] at hline
    rw [List.cons_append, scan_of_fault hline]

/-- A text in two parts, one below the other, fails as its first part does. Where the first part has tokens, the text
    fails as the second part does, with its fault below the first part, and otherwise has the tokens of the first part
    and after them those of the second part, with each of them and the end below the first part. -/
theorem tokens_append_line (a b : List Char) :
    tokens (a ++ '\n' :: b) = match tokens a, tokens b with
      | .error f, _ => .error f
      | .ok _, .error f => .error (f.below a)
      | .ok ts, .ok us => .ok ⟨ts.tokens ++ us.tokens.map (Token.below a), us.stop.below a⟩ := by
  unfold tokens
  rw [scan_append_line]
  cases ha : scan .start a with
  | error f => rfl
  | ok ts =>
    have hstop : ts.stop.next '\n' = Position.start.below a := by rw [(scan_eq_ok_iff.1 ha).2, Position.next_line]
    dsimp only
    rw [hstop, scan_below]
    cases scan .start b <;> rfl

end Appraisal.Submission
