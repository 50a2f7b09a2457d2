import Appraisal.Proofs.Text.Blank
import Appraisal.Submission.Basic

/-! How a text selects its notation. White space around a text makes no difference (`detect_eq_statements_iff`), and what
    selects the statement notation does not reach over a line break; so a text of two parts, with a line break
    between them, is in the statement notation exactly if one of the parts is (`detect_append_line`). -/

namespace Appraisal.Submission.Dialect
open Text

/-- Something in the text selects the statement notation. -/
def selects (cs : List Char) : Bool :=
  cs.contains ';' || hasQueryWord false cs || hasSymbol cs || hasDottedName false cs

@[simp] theorem selects_nil : selects [] = false := rfl

/-- The character is no part of anything that selects a notation. -/
structure Divides (d : Char) : Prop where
  word : isWord d = false
  semicolon : d ≠ ';'
  hash : d ≠ '#'
  dot : d ≠ '.'

theorem divides_newline : Divides '\n' := ⟨by decide, by decide, by decide, by decide⟩

theorem divides_of_isBlank {d : Char} (h : isBlank d = true) : Divides d where
  word := by
    rw [isWord, Bool.or_eq_false_iff]
    constructor
    · rw [Bool.eq_false_iff]
      intro hd
      rw [isBlank_of_isAlphanum hd] at h
      cases h
    · exact decide_eq_false (ne_of_class h (by decide))
  semicolon := ne_of_class h (by decide)
  hash := ne_of_class h (by decide)
  dot := ne_of_class h (by decide)

theorem isNameStart_of_not_isWord {c : Char} (h : isWord c = false) : isNameStart c = false := by
  simp only [isWord, Char.isAlphanum, Bool.or_eq_false_iff] at h
  simp [isNameStart, h.1.1, h.2]

/-! ### What selects the statement notation does not reach over a character that divides -/

theorem hasQueryWord_append {d : Char} (hd : Divides d) (joined : Bool) (a b : List Char) :
    hasQueryWord joined (a ++ d :: b) = (hasQueryWord joined a || hasQueryWord false b) := by
  induction a generalizing joined with
  | nil =>
    have hnone : Scan.query? [] = none := by decide
    simp [hasQueryWord, hd.word, hnone]
  | cons c a ih =>
    rw [List.cons_append, hasQueryWord, ← List.cons_append, takeWhile_append_stop hd.word, ih, hasQueryWord,
      Bool.or_assoc]

theorem hasSymbol_append {d : Char} (hd : Divides d) (a b : List Char) :
    hasSymbol (a ++ d :: b) = (hasSymbol a || hasSymbol b) := by
  induction a with
  | nil => simp [hasSymbol, hd.hash]
  | cons c a ih =>
    have hhead : (a ++ d :: b).head?.any isWord = a.head?.any isWord := by
      cases a <;> simp [hd.word]
    rw [List.cons_append, hasSymbol, hhead, ih, hasSymbol, Bool.or_assoc]

theorem hasDottedName_append {d : Char} (hd : Divides d) (named : Bool) (a b : List Char) :
    hasDottedName named (a ++ d :: b) = (hasDottedName named a || hasDottedName false b) := by
  induction a generalizing named with
  | nil => simp [hasDottedName, hd.dot, hd.word]
  | cons c a ih =>
    have hhead : (a ++ d :: b).head?.any isNameStart = a.head?.any isNameStart := by
      cases a <;> simp [isNameStart_of_not_isWord hd.word]
    rw [List.cons_append, hasDottedName, hhead, ih, hasDottedName, Bool.or_assoc]

theorem contains_semicolon_append {d : Char} (hd : Divides d) (a b : List Char) :
    (a ++ d :: b).contains ';' = (a.contains ';' || b.contains ';') := by
  simp [hd.semicolon.symm]

theorem selects_append {d : Char} (hd : Divides d) (a b : List Char) :
    selects (a ++ d :: b) = (selects a || selects b) := by
  rw [selects, contains_semicolon_append hd, hasQueryWord_append hd, hasSymbol_append hd, hasDottedName_append hd,
    selects, selects]
  ac_rfl

/-! ### White space around a text -/

theorem selects_before {lead : List Char} (h : ∀ c ∈ lead, isBlank c = true) (cs : List Char) :
    selects (lead ++ cs) = selects cs := by
  induction lead with
  | nil => rfl
  | cons c lead ih =>
    have hc := selects_append (divides_of_isBlank (h c List.mem_cons_self)) [] (lead ++ cs)
    rw [List.cons_append, ← ih fun d hd => h d (List.mem_cons_of_mem _ hd)]
    simpa using hc

theorem selects_after {trail : List Char} (h : ∀ c ∈ trail, isBlank c = true) (cs : List Char) :
    selects (cs ++ trail) = selects cs := by
  cases trail with
  | nil => rw [List.append_nil]
  | cons c trail =>
    have hnone : selects trail = false := by
      simpa using selects_before (fun d hd => h d (List.mem_cons_of_mem _ hd)) []
    rw [selects_append (divides_of_isBlank (h c List.mem_cons_self)), hnone, Bool.or_false]

theorem selects_strip (cs : List Char) : selects (strip cs) = selects cs := by
  obtain ⟨lead, trail, hcs, hlead, htrail⟩ := exists_strip cs
  calc selects (strip cs) = selects (lead ++ (strip cs ++ trail)) := by
        rw [selects_before hlead, selects_after htrail]
    _ = selects cs := by rw [← hcs]

/-! ### The notation of a text -/

theorem detect_eq_statements_iff {text : List Char} : detect text = .statements ↔ selects text = true := by
  rw [← selects_strip]
  show (if selects (strip text) = true then statements else lines) = statements ↔ _
  split <;> simp_all

theorem detect_append_line (a b : List Char) :
    detect (a ++ '\n' :: b) = .statements ↔ detect a = .statements ∨ detect b = .statements := by
  rw [detect_eq_statements_iff, detect_eq_statements_iff, detect_eq_statements_iff, selects_append divides_newline,
    Bool.or_eq_true]

end Appraisal.Submission.Dialect
