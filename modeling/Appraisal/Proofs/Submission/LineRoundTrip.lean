import Appraisal.Proofs.Submission.Agreement

/-! Fields that are written in the line notation and read back. A row is written `name: value` on a line of its own, with
    line feeds between the lines or carriage returns and line feeds. Names and texts may have anything in them that a
    line can hold, carriage returns and further separators in texts among it, but no white space at their ends; so
    each row is found again as it was (`lines_read_back`). -/

namespace Appraisal.Submission.Lines
open Text Numeral

/-! ### Rows -/

/-- A name that a line can give. -/
structure Name where
  text : String
  filled : text ≠ ""
  stripped : stripText text = text
  oneLine : '\n' ∉ text.toList
  noSeparator : ':' ∉ text.toList ∧ '=' ∉ text.toList

/-- A value that a line can give so that it is read back. -/
inductive Datum where
  | integer (n : Int) (within : (Nat.toDigits 10 n.natAbs).length ≤ digitLimit)
  | text (s : String) (filled : s ≠ "") (stripped : stripText s = s) (oneLine : '\n' ∉ s.toList)
      (lower : lowerText s = s) (noBacktick : '\x60' ∉ s.toList) (noNumeral : ∀ n : Plain, n.chars ≠ s.toList)

/-- A text that is left as it is by stripping begins and ends without white space. -/
theorem bare_of_stripped {s : String} (filled : s ≠ "") (stripped : stripText s = s) (oneLine : '\n' ∉ s.toList) :
    Grammar.Bare s.toList := by
  have hstrip : strip s.toList = s.toList := by
    rw [← String.toList_ofList (l := strip s.toList)]
    exact congrArg String.toList stripped
  refine ⟨by simpa using filled, oneLine, ?_, ?_⟩
  · exact hstrip ▸ first_of_strip s.toList
  · exact hstrip ▸ last_of_strip s.toList

namespace Name
variable (name : Name)

theorem bare : Grammar.Bare name.text.toList := bare_of_stripped name.filled name.stripped name.oneLine

theorem not_separator : ∀ c ∈ name.text.toList, isSeparator c = false := by
  intro c hc
  simp only [isSeparator, Bool.or_eq_false_iff, decide_eq_false_iff_not]
  constructor
  · rintro rfl
    exact name.noSeparator.1 hc
  · rintro rfl
    exact name.noSeparator.2 hc

end Name

namespace Datum

def value : Datum → Value
  | integer n _ => .number (.int n)
  | text s .. => .text s

/-- How a value is written. -/
def chars : Datum → List Char
  | integer n _ => Number.intText n
  | text s .. => s.toList

theorem bare (d : Datum) : Grammar.Bare d.chars := by
  cases d with
  | integer n within =>
    rw [chars, ← chars_ofInt]
    exact Grammar.bare_numeral (.ofInt n)
  | text s filled stripped oneLine lower noBacktick noNumeral => exact bare_of_stripped filled stripped oneLine

theorem denotes (d : Datum) : Denotes (dropBackticks d.chars) d.value := by
  cases d with
  | integer n within =>
    rw [chars, ← chars_ofInt, Grammar.dropBackticks_numeral, value, ← value_ofInt]
    exact .number (.ofInt n) fun _ => within
  | text s filled stripped oneLine lower noBacktick noNumeral =>
    have htext : Denotes s.toList (.text (lowerText s)) := .text noNumeral
    rwa [lower, ← dropBackticks_eq_self noBacktick] at htext

end Datum

structure Row where
  name : Name
  datum : Datum

namespace Row

def entry (r : Row) : String × Value := (r.name.text, r.datum.value)

def line (r : Row) : List Char := r.name.text.toList ++ ':' :: ' ' :: r.datum.chars

theorem bare_line (r : Row) : Grammar.Bare r.line := Grammar.bare_assignment r.name.bare r.datum.bare

theorem binding?_line {v : Vocabulary} {r : Row} (h : v.resolve r.name.text = r.name.text) :
    binding? v r.line = .ok (some r.entry) := by
  rw [line, Grammar.binding?_assignment v r.name.bare r.name.not_separator r.datum.bare,
    value_eq_ok_iff.2 r.datum.denotes, String.ofList_toList, h]
  rfl

end Row

/-! ### Texts -/

/-- The break between two lines, with a carriage return or without. -/
def lineBreak (returned : Bool) : List Char := if returned then ['\r', '\n'] else ['\n']

/-- The rows one on each line. -/
def written (returned : Bool) (rows : List Row) : List Char := (lineBreak returned).intercalate (rows.map Row.line)

theorem split_append_lineBreak (returned : Bool) {line : List Char} (h : Grammar.Bare line) (text : List Char) :
    split (line ++ lineBreak returned ++ text) = line :: split text := by
  rw [List.append_assoc]
  cases returned with
  | true => exact split_returnFeed h.oneLine text
  | false =>
    refine split_feed h.oneLine (fun hlast => ?_) text
    have hblank := h.last '\r' hlast
    cases hblank

theorem split_intercalate (returned : Bool) {lines : List (List Char)} (hne : lines ≠ [])
    (h : ∀ line ∈ lines, Grammar.Bare line) : split ((lineBreak returned).intercalate lines) = lines := by
  induction lines with
  | nil => exact absurd rfl hne
  | cons line lines ih =>
    obtain ⟨hline, hlines⟩ := List.forall_mem_cons.1 h
    cases lines with
    | nil =>
      rw [List.intercalate_singleton]
      exact split_of_oneLine hline.oneLine
    | cons next lines =>
      rw [List.intercalate_cons_cons, split_append_lineBreak returned hline, ih (List.cons_ne_nil _ _) hlines]

theorem bindings_written {v : Vocabulary} {rows : List Row} (h : ∀ r ∈ rows, v.resolve r.name.text = r.name.text) :
    bindings v (rows.map Row.line) = .ok (rows.map Row.entry) := by
  induction rows with
  | nil => rfl
  | cons r rows ih =>
    obtain ⟨hr, hrows⟩ := List.forall_mem_cons.1 h
    rw [List.map_cons, bindings, Row.binding?_line hr, ih hrows]
    rfl

/-- Rows with distinct names, which the vocabulary knows as they are, are read back from the lines that are written: the same
    values under the same names in the same order. -/
theorem lines_read_back (v : Vocabulary) (returned : Bool) (rows : List Row)
    (hdistinct : (rows.map fun r => r.name.text).Nodup) (hcanonical : ∀ r ∈ rows, v.resolve r.name.text = r.name.text) :
    ∃ m, fields v (written returned rows) = .ok m ∧ m.entries = rows.map Row.entry := by
  have hbare : ∀ line ∈ rows.map Row.line, Grammar.Bare line := List.forall_mem_map.2 fun r _ => Row.bare_line r
  have hbindings : bindings v (split (written returned rows)) = .ok (rows.map Row.entry) := by
    cases rows with
    | nil => rfl
    | cons r rows => rw [written, split_intercalate returned (by simp) hbare, bindings_written hcanonical]
  refine ⟨.ofList (rows.map Row.entry), ?_, OrderedMap.entries_ofList ?_⟩
  · rw [fields_eq_bindings, hbindings]
    rfl
  · rwa [List.map_map]

/-- A name with a carriage return, a text with separators, and line breaks with carriage returns. -/
theorem lines_read_back_returned : ∃ m, fields .empty "a\rb: x: = 1\r\nN: -12".toList = .ok m ∧
    m.entries = [("a\rb", .text "x: = 1"), ("N", .number (.int (-12)))] := by
  let named : Name := ⟨"a\rb", by decide, by decide +kernel, by decide, by decide⟩
  let numbered : Name := ⟨"N", by decide, by decide +kernel, by decide, by decide⟩
  let separated : Datum := .text "x: = 1" (by decide) (by decide +kernel) (by decide) (by decide +kernel) (by decide)
    fun n hn => absurd (isNumeral_iff.2 ⟨n, hn⟩) (by decide +kernel)
  let rows : List Row := [⟨named, separated⟩, ⟨numbered, .integer (-12) (by decide)⟩]
  have htext : written true rows = "a\rb: x: = 1\r\nN: -12".toList := by decide +kernel
  rw [← htext]
  exact lines_read_back .empty true rows (by decide) fun _ _ => rfl

end Appraisal.Submission.Lines
