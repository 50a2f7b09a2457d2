import Appraisal.Proofs.Number.Plain
import Appraisal.Proofs.Submission.Lines

/-! How the line notation is read, by what stands where. A text breaks into lines at its line feeds (`split_eq_iff`). The
    shape of an assignment leaves open where the white space around its separator belongs, so a line has this shape in
    several ways; all of them are at the first separator and give the same name and the same value once these are
    stripped (`Shaped.divided`), and a line that is not divided at its first separator has the shape in no way. So the
    fields of a text are what its lines bind at their first separators (`fields_by_first_separator`). -/

namespace Appraisal.Submission.Lines
open Text Numeral

/-! ### Lines of a text -/

/-- The text breaks into the lines. A carriage return before a line feed is part of the line break. -/
inductive Breaks : List Char → List (List Char) → Prop
  | last {line : List Char} (oneLine : '\n' ∉ line) : Breaks line [line]
  | feed {line text : List Char} {lines : List (List Char)} (oneLine : '\n' ∉ line) (noReturn : line.getLast? ≠ some '\r')
      (rest : Breaks text lines) : Breaks (line ++ '\n' :: text) (line :: lines)
  | returnFeed {line text : List Char} {lines : List (List Char)} (oneLine : '\n' ∉ line) (rest : Breaks text lines) :
      Breaks (line ++ '\r' :: '\n' :: text) (line :: lines)

variable {line text : List Char} {lines : List (List Char)}

theorem split_feed (oneLine : '\n' ∉ line) (noReturn : line.getLast? ≠ some '\r') (text : List Char) :
    split (line ++ '\n' :: text) = line :: split text := by
  induction line with
  | nil => rfl
  | cons c cs ih =>
    obtain ⟨hc, hcs⟩ := List.ne_and_not_mem_of_not_mem_cons oneLine
    cases cs with
    | nil =>
      refine split_cons (Ne.symm hc) ?_ rfl
      rintro rfl
      exact absurd rfl noReturn
    | cons d ds =>
      refine split_cons (Ne.symm hc) ?_ (ih hcs (by simpa using noReturn))
      rintro - rest hrest
      cases hrest
      exact hcs List.mem_cons_self

theorem split_returnFeed (oneLine : '\n' ∉ line) (text : List Char) :
    split (line ++ '\r' :: '\n' :: text) = line :: split text := by
  induction line with
  | nil => rfl
  | cons c cs ih =>
    obtain ⟨hc, hcs⟩ := List.ne_and_not_mem_of_not_mem_cons oneLine
    refine split_cons (Ne.symm hc) ?_ (ih hcs)
    rintro - rest hrest
    cases cs with
    | nil => cases hrest
    | cons d ds =>
      cases hrest
      exact hcs List.mem_cons_self

theorem Breaks.cons {c : Char} (hc : c ≠ '\n') (hreturn : c = '\r' → ∀ rest, text ≠ '\n' :: rest)
    (h : Breaks text (line :: lines)) : Breaks (c :: text) ((c :: line) :: lines) := by
  cases h with
  | last oneLine => exact .last (List.not_mem_cons_of_ne_of_not_mem hc.symm oneLine)
  | feed oneLine noReturn rest =>
    refine .feed (List.not_mem_cons_of_ne_of_not_mem hc.symm oneLine) ?_ rest
    cases line with
    | nil =>
      rintro hlast
      exact hreturn (by simpa using hlast) _ rfl
    | cons d ds => simpa using noReturn
  | returnFeed oneLine rest => exact .returnFeed (List.not_mem_cons_of_ne_of_not_mem hc.symm oneLine) rest

theorem breaks_split (text : List Char) : Breaks text (split text) := by
  fun_induction split text with
  | case1 => exact .last List.not_mem_nil
  | case2 cs ih => exact @Breaks.returnFeed [] cs _ List.not_mem_nil ih
  | case3 cs ih => exact @Breaks.feed [] cs _ List.not_mem_nil (by simp) ih
  | case4 c cs _ _ hnil => exact absurd hnil (split_ne_nil cs)
  | case5 c cs hreturn hc line lines hlines ih =>
    refine .cons hc ?_ (hlines ▸ ih)
    rintro rfl rest rfl
    exact hreturn rest rfl rfl

theorem split_eq_iff : split text = lines ↔ Breaks text lines := by
  constructor
  · rintro rfl
    exact breaks_split text
  · intro h
    induction h with
    | last oneLine => exact split_of_oneLine oneLine
    | feed oneLine noReturn _ ih => rw [split_feed oneLine noReturn, ih]
    | returnFeed oneLine _ ih => rw [split_returnFeed oneLine, ih]

/-! ### The first separator of a line -/

/-- The line is divided at its first separator, with something before and something after it. -/
inductive Divided : List Char → List Char → List Char → Prop
  | mk {name text : List Char} {sep : Char} (named : name ≠ []) (first : ∀ c ∈ name, isSeparator c = false)
      (separator : isSeparator sep = true) (filled : text ≠ []) : Divided (name ++ sep :: text) name text

/-- The line has the shape of an assignment: a name without separators, a gap, a separator, a gap and a text, where a gap is
    any white space, and white space may also end the name or begin the text. -/
inductive Shaped : List Char → List Char → List Char → Prop
  | mk {name gap gap' text : List Char} {sep : Char} (named : name ≠ []) (bare : ∀ c ∈ name, isSeparator c = false)
      (blank : ∀ c ∈ gap, isBlank c = true) (separator : isSeparator sep = true) (blank' : ∀ c ∈ gap', isBlank c = true)
      (filled : text ≠ []) (oneLine : '\n' ∉ text) : Shaped (name ++ gap ++ sep :: (gap' ++ text)) name text

variable {name value : List Char}

theorem isSeparator_of_isBlank {c : Char} (h : isBlank c = true) : isSeparator c = false := by
  simp [isSeparator, ne_of_class h (d := ':') (by decide), ne_of_class h (d := '=') (by decide)]

theorem Divided.shaped (h : Divided line name value) (oneLine : '\n' ∉ line) : Shaped line name value := by
  obtain ⟨named, first, separator, filled⟩ := h
  have hvalue : '\n' ∉ value := fun hmem => oneLine (by simp [hmem])
  simpa using @Shaped.mk name [] [] value _ named first (by simp) separator (by simp) filled hvalue

/-- In whatever way a line has the shape of an assignment, it is divided at its first separator into the same name and the
    same value, with more white space around them. -/
theorem Shaped.divided (h : Shaped line name value) :
    ∃ name' value', Divided line name' value' ∧ strip name' = strip name ∧ strip value' = strip value := by
  obtain ⟨named, bare, blank, separator, blank', filled, -⟩ := h
  rename_i gap gap' sep
  refine ⟨name ++ gap, gap' ++ value, ?_, strip_append blank, strip_before blank'⟩
  refine .mk (by simp [named]) (List.forall_mem_append.2 ⟨bare, fun c hc => ?_⟩) separator (by simp [filled])
  exact isSeparator_of_isBlank (blank c hc)

theorem divide_eq_some_iff {key x : List Char} : divide line = some (key, x) ↔
    ∃ name value, Divided line name value ∧ strip name = key ∧ strip value = x := by
  constructor
  · intro h
    have hline := List.takeWhile_append_dropWhile (p := (!isSeparator ·)) (l := line)
    unfold divide at h
    dsimp only at h
    split at h
    · rename_i sep value hdrop
      split at h
      · cases h
      · rename_i hfilled
        cases h
        simp only [Bool.or_eq_true, List.isEmpty_iff, not_or] at hfilled
        have hsep : isSeparator sep = true := by
          simpa [hdrop] using stops_dropWhile (p := (!isSeparator ·)) line
        rw [hdrop] at hline
        refine ⟨_, value, ?_, rfl, rfl⟩
        have hdivided : Divided (line.takeWhile (!isSeparator ·) ++ sep :: value) _ value :=
          .mk hfilled.1 (fun c hc => by simpa using List.mem_takeWhile_imp hc) hsep hfilled.2
        rwa [hline] at hdivided
    · cases h
  · rintro ⟨name, value, ⟨named, first, separator, filled⟩, rfl, rfl⟩
    rename_i sep
    have hrun : ∀ c ∈ name, (!isSeparator c) = true := fun c hc => by simp [first c hc]
    have hstop : Stops (!isSeparator ·) (sep :: value) := stops_cons.2 (by simp [separator])
    simp [divide, takeWhile_run hrun hstop, dropWhile_run hrun hstop, named, filled]

theorem divide_eq_none_iff : divide line = none ↔ ∀ name value, ¬ Divided line name value := by
  constructor
  · intro h name value hdivided
    have hsome := divide_eq_some_iff.2 ⟨name, value, hdivided, rfl, rfl⟩
    rw [h] at hsome
    cases hsome
  · intro h
    cases hdivide : divide line with
    | none => rfl
    | some p =>
      obtain ⟨name, value, hdivided, -⟩ := divide_eq_some_iff.1 hdivide
      exact absurd hdivided (h name value)

/-! ### Values -/

/-- The value that a text without backticks stands for: a numeral for its number, any other text for its lower case. -/
inductive Denotes : List Char → Value → Prop
  | number (n : Plain) (within : n.Within) : Denotes n.chars (.number n.value)
  | text {cs : List Char} (noNumeral : ∀ n : Plain, n.chars ≠ cs) : Denotes cs (.text (String.ofList (Case.lower cs)))

theorem value_eq_ok_iff {cs : List Char} {x : Value} : Lines.value cs = .ok x ↔ Denotes cs x := by
  constructor
  · intro h
    unfold Lines.value at h
    split at h
    · rename_i hnumeral
      obtain ⟨n, rfl⟩ := isNumeral_iff.1 hnumeral
      obtain ⟨k, hk, rfl⟩ := Outcome.map_eq_ok_iff.1 h
      rw [read_chars] at hk
      split at hk
      · cases hk
      · rename_i hwithin
        cases hk
        exact .number n fun hf => Nat.not_lt.1 fun hlt => hwithin ⟨hf, hlt⟩
    · rename_i hnumeral
      cases h
      exact .text fun n hn => hnumeral (isNumeral_iff.2 ⟨n, hn⟩)
  · rintro (⟨n, within⟩ | ⟨noNumeral⟩)
    · rw [Lines.value, if_pos (isNumeral_chars n), read_of_within within]
      rfl
    · rw [Lines.value, if_neg fun hnumeral => ?_]
      obtain ⟨n, hn⟩ := isNumeral_iff.1 hnumeral
      exact noNumeral n hn

/-! ### Fields of a text -/

/-- The lines make the bindings, one after another. -/
inductive Binds (v : Vocabulary) : List (List Char) → List (String × Value) → Prop
  | nil : Binds v [] []
  | skip {line : List Char} {lines : List (List Char)} {es : List (String × Value)}
      (undivided : ∀ name value, ¬ Divided (strip line) name value) (rest : Binds v lines es) : Binds v (line :: lines) es
  | bind {line name value : List Char} {lines : List (List Char)} {es : List (String × Value)} {x : Value}
      (divided : Divided (strip line) name value) (denotes : Denotes (dropBackticks (strip value)) x)
      (rest : Binds v lines es) : Binds v (line :: lines) ((v.resolve (String.ofList (strip name)), x) :: es)

variable {v : Vocabulary} {es : List (String × Value)}

theorem binding?_eq_none_iff :
    binding? v line = .ok none ↔ ∀ name value, ¬ Divided (strip line) name value := by
  rw [← divide_eq_none_iff, binding?]
  cases divide (strip line) with
  | none => simp
  | some p =>
    dsimp only
    cases Lines.value (dropBackticks p.2) <;> simp [Except.map]

theorem binding?_eq_some_iff {e : String × Value} : binding? v line = .ok (some e) ↔ ∃ name value x,
    Divided (strip line) name value ∧ Denotes (dropBackticks (strip value)) x ∧
      e = (v.resolve (String.ofList (strip name)), x) := by
  constructor
  · intro h
    unfold binding? at h
    split at h
    · cases h
    · rename_i key text hdivide
      obtain ⟨name, value, hdivided, rfl, rfl⟩ := divide_eq_some_iff.1 hdivide
      obtain ⟨x, hx, he⟩ := Outcome.map_eq_ok_iff.1 h
      cases he
      exact ⟨name, value, x, hdivided, value_eq_ok_iff.1 hx, rfl⟩
  · rintro ⟨name, value, x, hdivided, hx, rfl⟩
    rw [binding?, divide_eq_some_iff.2 ⟨name, value, hdivided, rfl, rfl⟩]
    exact Outcome.map_eq_ok_iff.2 ⟨x, value_eq_ok_iff.2 hx, rfl⟩

theorem bindings_eq_ok_iff : bindings v lines = .ok es ↔ Binds v lines es := by
  constructor
  · intro h
    induction lines generalizing es with
    | nil =>
      cases h
      exact .nil
    | cons line lines ih =>
      obtain ⟨e?, he, h⟩ := Outcome.bind_eq_ok_iff.1 h
      obtain ⟨rest, hrest, h⟩ := Outcome.bind_eq_ok_iff.1 h
      cases h
      cases e? with
      | none => exact .skip (binding?_eq_none_iff.1 he) (ih hrest)
      | some e =>
        obtain ⟨name, value, x, hdivided, hx, rfl⟩ := binding?_eq_some_iff.1 he
        exact .bind hdivided hx (ih hrest)
  · intro h
    induction h with
    | nil => rfl
    | skip undivided _ ih =>
      rw [bindings, binding?_eq_none_iff.2 undivided, ih]
      rfl
    | bind divided denotes _ ih =>
      rw [bindings, binding?_eq_some_iff.2 ⟨_, _, _, divided, denotes, rfl⟩, ih]
      rfl

theorem fields_eq_ok_iff {m : OrderedMap Value} :
    fields v text = .ok m ↔ ∃ ls es, Breaks text ls ∧ Binds v ls es ∧ .ofList es = m := by
  simp only [fields_eq_bindings, Outcome.map_eq_ok_iff, bindings_eq_ok_iff, ← split_eq_iff]
  simp

theorem Breaks.oneLine (h : Breaks text lines) : ∀ line ∈ lines, '\n' ∉ line := by
  induction h with
  | last oneLine => exact List.forall_mem_singleton.2 oneLine
  | feed oneLine _ _ ih => exact List.forall_mem_cons.2 ⟨oneLine, ih⟩
  | returnFeed oneLine _ ih => exact List.forall_mem_cons.2 ⟨oneLine, ih⟩

/-- A text is read exactly if its lines, each divided at its first separator, bind numbers that can be read and texts; then
    a name keeps the place of its first binding and has the value of the last one. In whatever way a line has the
    shape of an assignment, it is divided into the stripped name and value, and a line that is not of this shape is not
    divided. -/
theorem fields_by_first_separator (v : Vocabulary) (text : List Char) :
    (∀ m, fields v text = .ok m ↔ ∃ ls es, Breaks text ls ∧ Binds v ls es ∧
      m.keys = (es.map Prod.fst).eraseDups ∧ ∀ key, m.get? key = (es.filter (·.1 = key)).getLast?.map Prod.snd) ∧
    ∀ ls, Breaks text ls → ∀ line ∈ ls, ∀ key x,
      (∃ name value, Shaped (strip line) name value ∧ strip name = key ∧ strip value = x) ↔
        divide (strip line) = some (key, x) := by
  refine ⟨fun m => ?_, fun ls hls line hline key x => ?_⟩
  · rw [fields_eq_ok_iff]
    refine exists₂_congr fun ls es => and_congr_right fun _ => and_congr_right fun _ => ?_
    constructor
    · rintro rfl
      exact ⟨OrderedMap.keys_ofList es, OrderedMap.get?_ofList es⟩
    · rintro ⟨hkeys, hget⟩
      refine OrderedMap.ext_get? ((OrderedMap.keys_ofList es).trans hkeys.symm) fun key => ?_
      rw [OrderedMap.get?_ofList, hget]
  · rw [divide_eq_some_iff]
    constructor
    · rintro ⟨name, value, hshaped, rfl, rfl⟩
      exact hshaped.divided
    · rintro ⟨name, value, hdivided, rfl, rfl⟩
      have oneLine : '\n' ∉ strip line := fun hmem => hls.oneLine line hline ((strip_sublist line).mem hmem)
      exact ⟨name, value, hdivided.shaped oneLine, rfl, rfl⟩

/-- White space before a separator that could end the name, a second separator, and a line without a name. -/
theorem fields_by_first_separator_gaps :
    (∃ m, fields .empty "Ratio \t= \x601:2\x60\r\n: x".toList = .ok m ∧ m.keys = ["Ratio"]) ∧
    divide (strip "Ratio \t= \x601:2\x60".toList) = some ("Ratio".toList, "\x601:2\x60".toList) := by
  obtain ⟨hread, hdivide⟩ := fields_by_first_separator .empty "Ratio \t= \x601:2\x60\r\n: x".toList
  have hbreaks : Breaks "Ratio \t= \x601:2\x60\r\n: x".toList ["Ratio \t= \x601:2\x60".toList, ": x".toList] :=
    split_eq_iff.1 (by decide +kernel)
  have hshaped : Shaped "Ratio \t= \x601:2\x60".toList "Ratio ".toList "\x601:2\x60".toList :=
    @Shaped.mk "Ratio ".toList ['\t'] [' '] "\x601:2\x60".toList '=' (by decide) (by simp [isSeparator])
      (List.all_eq_true.1 rfl) rfl (List.all_eq_true.1 rfl) (by decide) (by decide +kernel)
  have hline : strip "Ratio \t= \x601:2\x60".toList = "Ratio \t= \x601:2\x60".toList := by decide +kernel
  have hdivided := (hdivide _ hbreaks _ List.mem_cons_self _ _).1 ⟨_, _, hline ▸ hshaped, rfl, rfl⟩
  obtain ⟨name, value, hname, hkey, hvalue⟩ := divide_eq_some_iff.1 hdivided
  have hdenotes : Denotes (dropBackticks (strip value)) (.text "1:2") := by
    rw [hvalue]
    exact .text fun n hn => absurd (isNumeral_iff.2 ⟨n, hn⟩) (by decide +kernel)
  have hskip : ∀ name value, ¬ Divided (strip ": x".toList) name value := divide_eq_none_iff.1 (by decide +kernel)
  have hbinds := Binds.bind (v := .empty) hname hdenotes (.skip hskip .nil)
  have hfields := (hread _).2 ⟨_, _, hbreaks, hbinds, OrderedMap.keys_ofList _, OrderedMap.get?_ofList _⟩
  refine ⟨⟨_, hfields, ?_⟩, hdivided⟩
  rw [OrderedMap.keys_ofList, hkey]
  decide +kernel

end Appraisal.Submission.Lines
