import Appraisal.Proofs.Submission.Obstacle
import Appraisal.Proofs.Submission.Tiling
import Appraisal.Submission.Basic
import Mathlib.Data.List.Induction

/-! Places in a text. The position of an offset is given by what stands before it. Every token has the position of the
    offset where it is written, and every report on a text is about the position of an offset in it
    (`tokens_and_reports_placed`). -/

namespace Appraisal.Submission
open Scan Statement

/-! ### Offsets -/

/-- The position of an offset: a line is counted for each line break before it, and a column for each character after
    the last of them. -/
def Position.ofOffset (text : List Char) (offset : Nat) : Position where
  line := 1 + (text.take offset).count '\n'
  column := 1 + ((text.take offset).reverse.takeWhile notNewline).length
  offset := offset

theorem Position.start_after (before rest : List Char) :
    Position.start.after before = .ofOffset (before ++ rest) before.length := by
  rw [ofOffset, List.take_left]
  induction before using List.reverseRecOn with
  | nil => rfl
  | append_singleton cs c ih =>
    rw [after_append, ih, after_cons, after_nil, next]
    by_cases hc : c = '\n'
    · subst hc
      simp [show notNewline '\n' = false from rfl, Nat.add_assoc]
    · have hkept : notNewline c = true := by simpa [notNewline] using hc
      simp [hkept, hc, Nat.add_assoc]

/-! ### Tokens -/

/-- The token is written as `span` at its offset, where no longer lexeme of its family stands, and has the position of
    that offset. -/
structure Stands (text : List Char) (t : Token) (span : List Char) : Prop where
  written : Written t.lexeme span
  here : span <+: text.drop t.position.offset
  longest : ∀ l longer, Written l longer → l.family = t.lexeme.family → longer <+: text.drop t.position.offset →
    longer.length ≤ span.length
  position : t.position = .ofOffset text t.position.offset

/-- From an offset on, a text is made of tokens and of layout: each token stands behind the one before it, with layout
    in between, and layout is what follows the last one. -/
inductive Tiles (text : List Char) : Nat → List Token → Prop
  | finish {n : Nat} (layout : Trailing (text.drop n)) : Tiles text n []
  | token {n : Nat} {t : Token} {ts : List Token} {span : List Char} (behind : n ≤ t.position.offset)
      (layout : Layout ((text.drop n).take (t.position.offset - n))) (stands : Stands text t span)
      (more : Tiles text (t.position.offset + span.length) ts) : Tiles text n (t :: ts)

theorem Lexeme.whole_nil (l : Lexeme) : l.WholeBefore [] := (Parted.endsBefore (by simp [Parted]) l).whole

theorem Written.ne_nil {l : Lexeme} {cs : List Char} (h : Written l cs) : cs ≠ [] := by
  obtain ⟨d, ds, rfl, -⟩ := step_written h l.whole_nil
  simp

theorem tiles_of_tiled {before cs : List Char} {ts : List Token} (h : Tiled (Position.start.after before) ts cs) :
    Tiles (before ++ cs) before.length ts := by
  generalize hp : Position.start.after before = p at h
  induction h generalizing before with
  | finish h =>
    refine .finish ?_
    rwa [List.drop_left]
  | @token p l ts gap cs rest layout written whole more ih =>
    subst hp
    rw [← Position.after_append]
    have hplace := Position.start_after (before ++ gap) (cs ++ rest)
    have htext : before ++ gap ++ (cs ++ rest) = before ++ (gap ++ (cs ++ rest)) := List.append_assoc ..
    rw [← htext, hplace]
    refine .token ?_ ?_ (⟨written, ?_, ?_, rfl⟩ : Stands _ _ cs) ?_
    · simp [Position.ofOffset]
    · simpa [Position.ofOffset] using layout
    · simp [Position.ofOffset]
    · intro l' longer hwritten hfamily hhead
      refine longest_of_whole written whole (hfamily ▸ hwritten.shape) ?_
      simpa [Position.ofOffset] using hhead
    · have := @ih (before ++ gap ++ cs) (by simp)
      simpa [Position.ofOffset, Nat.add_assoc] using this

theorem tiles_of_tokens {text : List Char} {ts : TokenList} (h : tokens text = .ok ts) : Tiles text 0 ts.tokens :=
  @tiles_of_tiled [] text ts.tokens (tiled_of_scan h)

/-- The offset of a token lies inside the text. -/
theorem Stands.offset_lt {text span : List Char} {t : Token} (h : Stands text t span) :
    t.position.offset < text.length := by
  have hspan := List.length_pos_iff.2 h.written.ne_nil
  have hlength := h.here.length_le
  rw [List.length_drop] at hlength
  omega

namespace Tiles
variable {text : List Char} {n : Nat} {ts : List Token}

theorem stands (h : Tiles text n ts) : ∀ t ∈ ts, n ≤ t.position.offset ∧ ∃ span, Stands text t span := by
  induction h with
  | finish => simp
  | token behind layout stands more ih =>
    refine List.forall_mem_cons.2 ⟨⟨behind, _, stands⟩, fun t ht => ⟨?_, (ih t ht).2⟩⟩
    exact behind.trans ((Nat.le_add_right _ _).trans (ih t ht).1)

theorem increasing (h : Tiles text n ts) : (ts.map (·.position.offset)).Pairwise (· < ·) := by
  induction h with
  | finish => exact .nil
  | token behind layout stands more ih =>
    refine List.pairwise_cons.2 ⟨fun offset hoffset => ?_, ih⟩
    obtain ⟨t, ht, rfl⟩ := List.mem_map.1 hoffset
    have hspan := List.length_pos_iff.2 stands.written.ne_nil
    exact Nat.lt_of_lt_of_le (Nat.lt_add_of_pos_right hspan) (more.stands t ht).1

end Tiles

/-- A lexeme of a text is written in it. -/
theorem Lexes.exists_written {ls : List Lexeme} {text : List Char} (h : Lexes ls text) {l : Lexeme} (hl : l ∈ ls) :
    ∃ span, Written l span ∧ span.Sublist text := by
  obtain ⟨ts, hts, rfl⟩ := h
  obtain ⟨t, ht, rfl⟩ := List.mem_map.1 hl
  obtain ⟨-, span, hstands⟩ := (tiles_of_tokens hts).stands t ht
  exact ⟨span, hstands.written, hstands.here.sublist.trans (List.drop_sublist _ _)⟩

theorem stop_of_tokens {text : List Char} {ts : TokenList} (h : tokens text = .ok ts) :
    ts.stop = .ofOffset text text.length := by
  rw [(scan_eq_ok_iff.1 h).2]
  simpa using Position.start_after text []

/-! ### Reports -/

/-- A place in what is left of a text is a place in the text. -/
theorem exists_of_rest {p q : Position} {taken rest text : List Char} (htext : taken ++ rest = text)
    (h : ∃ before, before <+: rest ∧ q = (p.after taken).after before) :
    ∃ before, before <+: text ∧ q = p.after before := by
  obtain ⟨before, hbefore, rfl⟩ := h
  exact ⟨taken ++ before, htext ▸ (List.prefix_append_right_inj taken).2 hbefore, (p.after_append taken before).symm⟩

theorem exists_of_scan_error {p : Position} {cs : List Char} {f : Failure} (h : scan p cs = .error f) :
    ∃ before, before <+: cs ∧ f.position = p.after before := by
  fun_induction scan p cs with
  | case1 => cases h
  | case2 p c cs taken rest hstep ih =>
    have htaken := step_taken c cs
    rw [hstep] at htaken
    exact exists_of_rest htaken.2 (ih h)
  | case3 p c cs l taken rest hstep ih =>
    have htaken := step_taken c cs
    rw [hstep] at htaken
    exact exists_of_rest htaken.2 (ih (Outcome.map_eq_error_iff.1 h))
  | case4 p c cs f before hstep =>
    have htaken := step_taken c cs
    rw [hstep] at htaken
    cases h
    exact ⟨before, htaken, rfl⟩

/-- A fault of the scanner has the position of an offset in the text. -/
theorem position_of_tokens_error {text : List Char} {f : Failure} (h : tokens text = .error f) :
    ∃ offset ≤ text.length, f.position = .ofOffset text offset := by
  obtain ⟨before, ⟨rest, rfl⟩, hf⟩ := exists_of_scan_error h
  exact ⟨before.length, by simp, by rw [hf, Position.start_after]⟩

/-- The first of the last tokens of a text, or the end of the text, has the position of an offset in the text. -/
theorem position_of_rest {text : List Char} {ts : TokenList} (h : tokens text = .ok ts) {rest : List Token}
    (hrest : rest <:+ ts.tokens) : ∃ offset ≤ text.length, headPosition ts.stop rest = .ofOffset text offset := by
  cases rest with
  | nil => exact ⟨text.length, Nat.le_refl _, stop_of_tokens h⟩
  | cons t rest =>
    obtain ⟨-, span, hstands⟩ := (tiles_of_tokens h).stands t (hrest.subset List.mem_cons_self)
    exact ⟨_, hstands.offset_lt.le, hstands.position⟩

theorem placed_of_report {text : List Char} {r : Report} (h : Program.read text = .error (.malformed r)) :
    ∃ offset ≤ text.length, r.position = .ofOffset text offset ∧
      r.excerpt = some (String.ofList (excerpt text offset)) := by
  -- A report about a position of the text shows the text around its offset.
  have about : ∀ {cause : Cause} {p : Position}, (∃ offset ≤ text.length, p = .ofOffset text offset) →
      Report.about text cause p = r → ∃ offset ≤ text.length, r.position = .ofOffset text offset ∧
        r.excerpt = some (String.ofList (excerpt text offset)) := by
    rintro cause _ ⟨offset, hle, rfl⟩ rfl
    exact ⟨offset, hle, rfl, rfl⟩
  unfold Program.read at h
  split at h
  · rename_i f hf
    simp only [Except.error.injEq, Fault.malformed.injEq] at h
    exact about (position_of_tokens_error hf) h
  · rename_i ts hts
    dsimp only at h
    split at h
    · cases h
    · rename_i f rest hobstacle
      simp only [Except.error.injEq, Fault.malformed.injEq] at h
      exact about (position_of_rest hts (leftOf_of_readAll hobstacle)) h
    · cases h

/-- The tokens of a text tile it: each is written at its offset, as long as its family allows, they follow one
    another with layout in between, and the end has the position of the end of the text. A report on a text is about
    the position of an offset in it, and shows the text around that offset. -/
theorem tokens_and_reports_placed (text : List Char) :
    (∀ ts, tokens text = .ok ts → Tiles text 0 ts.tokens ∧ (ts.tokens.map (·.position.offset)).Pairwise (· < ·) ∧
      (∀ t ∈ ts.tokens, t.lexeme.kind ≠ .finish) ∧ ts.stop = .ofOffset text text.length) ∧
    ∀ v r, ofProgram v text = .error (.malformed r) → ∃ offset ≤ text.length, r.position = .ofOffset text offset ∧
      r.excerpt = some (String.ofList (excerpt text offset)) := by
  constructor
  · intro ts h
    have htiles := tiles_of_tokens h
    refine ⟨htiles, htiles.increasing, fun t _ => ?_, stop_of_tokens h⟩
    cases t.lexeme with
    | mark m => cases m <;> simp [Lexeme.kind]
    | query q => cases q <;> simp [Lexeme.kind]
    | _ => simp [Lexeme.kind]
  · intro v r h
    exact placed_of_report (Outcome.map_eq_error_iff.1 h)

/-- A number after a comment, and a string that is not closed in the second line. -/
theorem tokens_and_reports_placed_commented :
    (∃ ts, tokens "A:// b\n-1.5;".toList = .ok ts ∧ Tiles "A:// b\n-1.5;".toList 0 ts.tokens ∧
      ts.tokens.map Token.position = [⟨1, 1, 0⟩, ⟨1, 2, 1⟩, ⟨2, 1, 7⟩, ⟨2, 5, 11⟩]) ∧
    ∃ r, ofProgram .empty "A:\n \"x".toList = .error (.malformed r) ∧ r.position = ⟨2, 4, 6⟩ ∧
      ∃ offset ≤ 6, r.position = .ofOffset "A:\n \"x".toList offset := by
  have htokens : (tokens "A:// b\n-1.5;".toList).map (·.tokens.map Token.position) =
      .ok [⟨1, 1, 0⟩, ⟨1, 2, 1⟩, ⟨2, 1, 7⟩, ⟨2, 5, 11⟩] := by decide +kernel
  obtain ⟨ts, hts, hpositions⟩ := Outcome.map_eq_ok_iff.1 htokens
  refine ⟨⟨ts, hts, ((tokens_and_reports_placed _).1 ts hts).1, hpositions⟩, ?_⟩
  have hread : ofProgram .empty "A:\n \"x".toList = .error (.malformed (.about "A:\n \"x".toList
      (.scan .unterminatedString) ⟨2, 4, 6⟩)) := by
    have hscan : tokens "A:\n \"x".toList = .error ⟨.unterminatedString, ⟨2, 4, 6⟩⟩ := by decide +kernel
    rw [ofProgram, Program.read, hscan]
    rfl
  obtain ⟨offset, hle, hposition, -⟩ := (tokens_and_reports_placed _).2 _ _ hread
  exact ⟨_, hread, rfl, offset, hle, hposition⟩

end Appraisal.Submission
