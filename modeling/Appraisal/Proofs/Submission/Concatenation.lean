import Appraisal.Proofs.Submission.Dialect
import Appraisal.Proofs.Submission.Lines
import Appraisal.Proofs.Submission.Program

/-! Texts of two parts with a line break between them. Where both parts are read in the same notation, the text is read
    in it too, and says what the first part says updated with what the second one says (`read_append_line`). -/

namespace Appraisal.Submission
open Grammar

variable {v : Vocabulary} {a b : List Char} {sa sb : Submission}

/-- What two submissions in the same notation say one after the other. -/
def followedBy (sa sb : Submission) : Submission :=
  ⟨sa.dialect, sa.fields.update sb.fields, sa.seenQuery || sb.seenQuery⟩

theorem submission_append (cs ds : List Clause) :
    Clause.submission v (cs ++ ds) = (Clause.submission v cs).followedBy (Clause.submission v ds) := by
  simp only [Clause.submission, followedBy, List.filterMap_append, List.any_append, OrderedMap.update_ofList]
  rw [OrderedMap.ofList, List.foldl_append]
  rfl

theorem ofProgram_append_line (ha : ofProgram v a = .ok sa) (hb : ofProgram v b = .ok sb) :
    ofProgram v (a ++ '\n' :: b) = .ok (sa.followedBy sb) := by
  obtain ⟨cs, hcs, hwithin, rfl⟩ := ofProgram_eq_ok_iff_lexes.1 ha
  obtain ⟨ds, hds, hwithin', rfl⟩ := ofProgram_eq_ok_iff_lexes.1 hb
  refine ofProgram_eq_ok_iff_lexes.2 ⟨cs ++ ds, ?_, ?_, submission_append cs ds⟩
  · rw [List.flatMap_append]
    exact hcs.append_line hds
  · exact List.forall_mem_append.2 ⟨hwithin, hwithin'⟩

theorem ofLines_append_line (ha : ofLines v a = .ok sa) (hb : ofLines v b = .ok sb) :
    ofLines v (a ++ '\n' :: b) = .ok (sa.followedBy sb) := by
  obtain ⟨es, hes, rfl⟩ := Lines.ofLines_eq_ok_iff.1 ha
  obtain ⟨fs, hfs, rfl⟩ := Lines.ofLines_eq_ok_iff.1 hb
  refine Lines.ofLines_eq_ok_iff.2 ⟨es ++ fs, ?_, ?_⟩
  · rw [Lines.bindings_append_line]
    exact Lines.bindings_append hes hfs
  · rw [followedBy, OrderedMap.update_ofList, OrderedMap.ofList, List.foldl_append]
    rfl

/-- A text of two parts is in the statement notation exactly if one of the parts is. Where both are read in the same
    notation, so is the text, and says what both say: the keys of the first part keep their places, the new ones of
    the second part follow in their order, and where both have a key the value is that of the second part. -/
theorem read_append_line (v : Vocabulary) (a b : List Char) :
    (Dialect.detect (a ++ '\n' :: b) = .statements ↔
      Dialect.detect a = .statements ∨ Dialect.detect b = .statements) ∧
    ∀ sa sb, Dialect.detect a = Dialect.detect b → read v a = .ok sa → read v b = .ok sb →
      ∃ s, read v (a ++ '\n' :: b) = .ok s ∧ s.fields = sa.fields.update sb.fields ∧
        s.fields.keys = sa.fields.keys ++ sb.fields.keys.filter (· ∉ sa.fields.keys) ∧
        (∀ key, s.fields.get? key = (sb.fields.get? key).or (sa.fields.get? key)) ∧
        s.seenQuery = (sa.seenQuery || sb.seenQuery) := by
  have hdetect := Dialect.detect_append_line a b
  refine ⟨hdetect, fun sa sb hsame ha hb => ?_⟩
  have hread : read v (a ++ '\n' :: b) = .ok (sa.followedBy sb) := by
    unfold read at ha hb ⊢
    cases hda : Dialect.detect a with
    | statements =>
      rw [hda] at ha
      rw [← hsame, hda] at hb
      rw [hdetect.2 (Or.inl hda)]
      exact ofProgram_append_line ha hb
    | lines =>
      rw [hda] at ha
      rw [← hsame, hda] at hb
      have hlines : Dialect.detect (a ++ '\n' :: b) = .lines := by
        cases hd : Dialect.detect (a ++ '\n' :: b) with
        | lines => rfl
        | statements => simp [hd, hda, ← hsame] at hdetect
      rw [hlines]
      exact ofLines_append_line ha hb
  exact ⟨_, hread, rfl, OrderedMap.keys_update _ _, OrderedMap.get?_update _ _, rfl⟩

/-- A comment that is open at the end of the first part, and a field that both parts have. -/
theorem read_append_line_commented : ∃ s, read .empty ("A:x;B:y;//".toList ++ '\n' :: "C:z;A:w;CHECK;".toList) = .ok s ∧
    s.fields.keys = ["A", "B", "C"] ∧ s.fields.get? "A" = some (.text "w") ∧ s.seenQuery = true := by
  have ha : Lexes (List.flatMap Clause.lexemes [.assign ⟨"A", []⟩ .colon (.path ⟨"x", []⟩),
      .assign ⟨"B", []⟩ .colon (.path ⟨"y", []⟩)]) "A:x;B:y;//".toList :=
    Outcome.map_eq_ok_iff.1 (by decide +kernel)
  have hb : Lexes (List.flatMap Clause.lexemes [.assign ⟨"C", []⟩ .colon (.path ⟨"z", []⟩),
      .assign ⟨"A", []⟩ .colon (.path ⟨"w", []⟩), .query .check]) "C:z;A:w;CHECK;".toList :=
    Outcome.map_eq_ok_iff.1 (by decide +kernel)
  have hda : Dialect.detect "A:x;B:y;//".toList = .statements := by decide +kernel
  have hdb : Dialect.detect "C:z;A:w;CHECK;".toList = .statements := by decide +kernel
  have hreada := ofProgram_eq_ok_iff_lexes (v := .empty).2
    ⟨_, ha, by simp [Clause.Within, Operand.Within], rfl⟩
  have hreadb := ofProgram_eq_ok_iff_lexes (v := .empty).2
    ⟨_, hb, by simp [Clause.Within, Operand.Within], rfl⟩
  have hsame := hda.trans hdb.symm
  obtain ⟨s, hs, -, hkeys, hget, hquery⟩ := (read_append_line .empty _ _).2 _ _ hsame
    (by rw [read, hda]; exact hreada) (by rw [read, hdb]; exact hreadb)
  refine ⟨s, hs, hkeys.trans (by decide +kernel), (hget "A").trans ?_, hquery⟩
  have hw : normalize "w" = "w" := by decide
  rw [← hw]
  rfl

end Appraisal.Submission
