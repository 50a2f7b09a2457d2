import Appraisal.Proofs.Submission.Place

/-! Where the caret of a report stands. An excerpt shows what stands before the place of the report, the character there
    and what follows, and a line with a caret, whose column is counted as if all that is shown before the place were one
    line. So the caret stands under the character exactly if no line break is shown before it, and else on the right of
    it (`caret_under_one_line`). -/

namespace Appraisal.Submission
open Scan

/-! ### Columns -/

/-- The column, counted from zero, of what stands behind `cs`. -/
def columnAfter (cs : List Char) : Nat := (cs.reverse.takeWhile notNewline).length

section
variable {ys : List Char}

theorem columnAfter_append_of_mem (h : '\n' ∈ ys) (xs : List Char) : columnAfter (xs ++ ys) = columnAfter ys := by
  obtain ⟨line, lines, hys⟩ := List.append_of_mem (List.mem_reverse.2 h)
  have hstop : notNewline '\n' = false := rfl
  rw [columnAfter, columnAfter, List.reverse_append, hys, List.append_assoc, List.cons_append,
    Text.takeWhile_append_stop hstop, Text.takeWhile_append_stop hstop]

theorem columnAfter_lt_of_mem (h : '\n' ∈ ys) : columnAfter ys < ys.length := by
  obtain ⟨line, lines, hys⟩ := List.append_of_mem (List.mem_reverse.2 h)
  have hline : (line.takeWhile notNewline).length ≤ line.length := (List.takeWhile_sublist _).length_le
  have hlength : ys.length = line.length + (lines.length + 1) := by
    rw [← List.length_reverse, hys, List.length_append, List.length_cons]
  rw [columnAfter, hys, Text.takeWhile_append_stop rfl]
  omega

theorem columnAfter_append_of_not_mem (h : '\n' ∉ ys) (xs : List Char) :
    columnAfter (xs ++ ys) = columnAfter xs + ys.length := by
  have hys : ∀ c ∈ ys.reverse, notNewline c = true := by
    rintro c hc
    rw [notNewline, bne_iff_ne]
    rintro rfl
    exact h (List.mem_reverse.1 hc)
  rw [columnAfter, List.reverse_append, List.takeWhile_append_of_pos hys, List.length_append, List.length_reverse,
    Nat.add_comm]
  rfl

theorem columnAfter_line (h : '\n' ∉ ys) (xs : List Char) : columnAfter (xs ++ '\n' :: ys) = ys.length := by
  rw [List.append_cons, columnAfter_append_of_not_mem h, columnAfter_append_of_mem (List.mem_singleton_self _)]
  exact Nat.zero_add _

end

/-! ### Excerpts -/

/-- What an excerpt shows of the text before its place. -/
def shownBefore (before : List Char) : List Char := before.drop (before.length - excerptRadius)

theorem length_shownBefore (before : List Char) :
    (shownBefore before).length = min excerptRadius before.length := by
  rw [shownBefore, List.length_drop]
  omega

theorem excerpt_at (before after : List Char) (c : Char) :
    excerpt (before ++ c :: after) before.length =
      "...".toList ++ (shownBefore before ++ c :: after.take (excerptRadius - 1)) ++
        '\n' :: List.replicate (3 + (shownBefore before).length) ' ' ++ ['^'] := by
  -- The ends of what is shown of the text.
  have hfirst : ((before.length : Int) - excerptRadius).toNat = before.length - excerptRadius := Int.toNat_sub _ _
  have hlast : min ((before ++ c :: after).length : Int) (before.length + excerptRadius) =
      (before.length + min (c :: after).length excerptRadius : Nat) := by
    simp only [List.length_append]
    omega
  have hcount : before.length + min (c :: after).length excerptRadius - (before.length - excerptRadius) =
      (shownBefore before).length + min excerptRadius (c :: after).length := by
    rw [length_shownBefore]
    omega
  have hblanks : (3 + min (excerptRadius : Int) before.length).toNat = 3 + (shownBefore before).length := by
    rw [length_shownBefore]
    omega
  have hshown : ((before ++ c :: after).drop (before.length - excerptRadius)).take
      ((shownBefore before).length + min excerptRadius (c :: after).length) =
      shownBefore before ++ c :: after.take (excerptRadius - 1) := by
    rw [List.drop_append_of_le_length (Nat.sub_le _ _), ← shownBefore, List.take_length_add_append,
      ← List.take_eq_take_min]
    rfl
  have hnonneg : ¬ ((before.length + min (c :: after).length excerptRadius : Nat) : Int) < 0 := by omega
  unfold excerpt
  simp only [hfirst, hlast, hblanks, if_neg hnonneg, Int.toNat_natCast, hcount, hshown]

section
variable (before after : List Char) (c : Char)

theorem length_shown : ("...".toList ++ shownBefore before).length = 3 + min excerptRadius before.length := by
  rw [List.length_append, length_shownBefore]
  rfl

/-- The place of an excerpt in it. -/
theorem excerpt_split : ∃ rest, excerpt (before ++ c :: after) before.length =
    "...".toList ++ shownBefore before ++ c :: rest := by
  refine ⟨after.take (excerptRadius - 1) ++ '\n' :: List.replicate (3 + (shownBefore before).length) ' ' ++ ['^'], ?_⟩
  rw [excerpt_at]
  simp only [List.append_assoc, List.cons_append]

theorem take_excerpt : (excerpt (before ++ c :: after) before.length).take (3 + min excerptRadius before.length) =
    "...".toList ++ shownBefore before := by
  obtain ⟨rest, hrest⟩ := excerpt_split before after c
  rw [hrest, ← length_shown, List.take_left]

theorem getElem?_excerpt : (excerpt (before ++ c :: after) before.length)[3 + min excerptRadius before.length]? =
    some c := by
  obtain ⟨rest, hrest⟩ := excerpt_split before after c
  rw [hrest, ← length_shown, List.getElem?_append_right (Nat.le_refl _), Nat.sub_self]
  rfl

theorem columnAfter_dropLast_excerpt : columnAfter (excerpt (before ++ c :: after) before.length).dropLast =
    3 + min excerptRadius before.length := by
  have hblanks : '\n' ∉ List.replicate (3 + (shownBefore before).length) ' ' :=
    fun h => absurd (List.eq_of_mem_replicate h) (by decide)
  rw [excerpt_at, List.dropLast_concat, columnAfter_line hblanks, List.length_replicate, length_shownBefore]

/-- A line break is shown before the place if the line of the place begins behind the first of what is shown. -/
theorem newline_mem_shownBefore_iff :
    '\n' ∈ shownBefore before ↔ columnAfter before < min excerptRadius before.length := by
  have hbefore : before = before.take (before.length - excerptRadius) ++ shownBefore before :=
    (List.take_append_drop _ _).symm
  rw [← length_shownBefore]
  constructor
  · intro h
    rw [hbefore, columnAfter_append_of_mem h, ← hbefore]
    exact columnAfter_lt_of_mem h
  · intro h
    by_contra hnot
    have hcolumn := columnAfter_append_of_not_mem hnot (before.take (before.length - excerptRadius))
    rw [← hbefore] at hcolumn
    omega

theorem columnAfter_shown : columnAfter ("...".toList ++ shownBefore before) =
    if columnAfter before < min excerptRadius before.length then columnAfter before
    else 3 + min excerptRadius before.length := by
  have hbefore : before = before.take (before.length - excerptRadius) ++ shownBefore before :=
    (List.take_append_drop _ _).symm
  split
  · rename_i h
    have hnewline := (newline_mem_shownBefore_iff before).2 h
    rw [columnAfter_append_of_mem hnewline]
    conv_rhs => rw [hbefore]
    rw [columnAfter_append_of_mem hnewline]
  · rename_i h
    have hnewline := mt (newline_mem_shownBefore_iff before).1 h
    rw [columnAfter_append_of_not_mem hnewline, length_shownBefore]
    rfl

end

/-! ### Reports -/

/-- The caret at the end of what is shown stands in the column of the character at the index. -/
def PointsAt (shown : List Char) (i : Nat) : Prop := columnAfter shown.dropLast = columnAfter (shown.take i)

/-- A report about a character of the text shows it with a caret at the end, whose column is that of the character if
    all that is shown before it is one line. So the caret points at the character exactly if no line break is shown before
    it. Otherwise the character stands in the column in which it stands in its line of the text, on the left of the
    caret. -/
theorem caret_under_one_line {v : Vocabulary} {text : List Char} {r : Report}
    (h : ofProgram v text = .error (.malformed r)) (hinside : r.position.offset < text.length) :
    let offset := r.position.offset
    let i := 3 + min excerptRadius offset
    ∃ shown, r.excerpt = some (String.ofList shown) ∧ shown.getLast? = some '^' ∧ shown[i]? = text[offset]? ∧
      columnAfter shown.dropLast = i ∧
      columnAfter (shown.take i) = (if r.position.column ≤ min excerptRadius offset then r.position.column - 1 else i) ∧
      (PointsAt shown i ↔ '\n' ∉ (text.take offset).drop (offset - excerptRadius)) := by
  obtain ⟨offset, -, hposition, hexcerpt⟩ := placed_of_report (Outcome.map_eq_error_iff.1 h)
  have hoffset : r.position.offset = offset := by rw [hposition]; rfl
  have hcolumn : r.position.column = 1 + columnAfter (text.take offset) := by rw [hposition]; rfl
  rw [hoffset] at hinside
  rw [hoffset, hcolumn]
  -- The text is divided at the place of the report.
  obtain ⟨before, c, after, rfl, rfl⟩ : ∃ before c after, text = before ++ c :: after ∧ before.length = offset := by
    refine ⟨text.take offset, text[offset], text.drop (offset + 1), ?_, List.length_take_of_le hinside.le⟩
    rw [← List.drop_eq_getElem_cons hinside, List.take_append_drop]
  rw [List.take_left]
  intro offset i
  have hcaret := columnAfter_dropLast_excerpt before after c
  have hplace : columnAfter ((excerpt (before ++ c :: after) before.length).take i) =
      if columnAfter before < min excerptRadius before.length then columnAfter before else i := by
    rw [take_excerpt, columnAfter_shown]
  refine ⟨_, hexcerpt, ?_, ?_, hcaret, ?_, ?_⟩
  · rw [excerpt_at, List.getLast?_concat]
  · rw [getElem?_excerpt, List.getElem?_append_right (Nat.le_refl _), Nat.sub_self]
    rfl
  · rw [hplace]
    simp only [Nat.add_comm 1, Nat.succ_le_iff, Nat.add_sub_cancel, offset]
  · have hshown : (before ++ c :: after).take offset = before := List.take_left
    rw [PointsAt, hcaret, hplace, hshown, ← shownBefore, newline_mem_shownBefore_iff]
    split
    · rename_i hbroken
      exact iff_of_false (by omega) (not_not_intro hbroken)
    · rename_i hwhole
      exact iff_of_true rfl hwhole

/-- A value is missing in the second statement of a line. -/
theorem caret_under_one_line_missing : ∃ r, ofProgram .empty "A: 1; B: ;".toList = .error (.malformed r) ∧
    r.position.offset < "A: 1; B: ;".toList.length ∧
    ∃ shown, r.excerpt = some (String.ofList shown) ∧ PointsAt shown (3 + min excerptRadius r.position.offset) := by
  have hread : ofProgram .empty "A: 1; B: ;".toList = .error (.malformed (.about "A: 1; B: ;".toList
      (.grammar .expectedValue) ⟨1, 10, 9⟩)) := by
    have hread : Program.read "A: 1; B: ;".toList = .error (.malformed (.about "A: 1; B: ;".toList
      (.grammar .expectedValue) ⟨1, 10, 9⟩)) := by decide +kernel
    rw [ofProgram, hread]
    rfl
  have hinside : (⟨1, 10, 9⟩ : Position).offset < "A: 1; B: ;".toList.length := by decide
  obtain ⟨shown, hshown, -, -, -, -, hpoints⟩ := caret_under_one_line hread hinside
  exact ⟨_, hread, hinside, shown, hshown, hpoints.2 (by decide)⟩

/-- In a text of two lines the caret is not under the character that is reported on, which stands first in its line. -/
theorem caret_beside_second_line : ∃ r, ofProgram .empty "A: 1;\n?".toList = .error (.malformed r) ∧
    r.position.offset < "A: 1;\n?".toList.length ∧ r.excerpt = some "...A: 1;\n?\n         ^" ∧
    ∀ shown, r.excerpt = some (String.ofList shown) → ¬ PointsAt shown (3 + min excerptRadius r.position.offset) := by
  have hread : ofProgram .empty "A: 1;\n?".toList = .error (.malformed (.about "A: 1;\n?".toList
      (.scan (.unexpected '?')) ⟨2, 1, 6⟩)) := by
    have hscan : tokens "A: 1;\n?".toList = .error ⟨.unexpected '?', ⟨2, 1, 6⟩⟩ := by decide +kernel
    rw [ofProgram, Program.read, hscan]
    rfl
  have hexcerpt : excerpt "A: 1;\n?".toList (6 : Nat) = "...A: 1;\n?\n         ^".toList := by decide +kernel
  refine ⟨_, hread, by decide, ?_, fun shown hshown => ?_⟩
  · rw [Report.about, hexcerpt, String.ofList_toList]
  · obtain rfl : "...A: 1;\n?\n         ^".toList = shown := by
      have hshown := Option.some.inj hshown
      rw [hexcerpt] at hshown
      exact String.ofList_injective hshown
    rw [PointsAt]
    decide +kernel

end Appraisal.Submission
