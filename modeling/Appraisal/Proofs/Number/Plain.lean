import Appraisal.Number.Numeral
import Appraisal.Proofs.Text.Blank

/-! Plain numerals: a minus sign or none, digits, and after a point perhaps more digits. `isNumeral` recognises
    them (`isNumeral_iff`), and each of them is read as the number that its parts give: an integer without a
    point, if it has no more than `digitLimit` digits, else a floating point number (`read_chars`). -/

namespace Appraisal.Numeral
open Text

/-- The parts of a numeral in plain form. -/
structure Plain where
  negative : Bool
  whole : List Char
  fraction : Option (List Char)
  whole_ne_nil : whole ≠ []
  whole_digits : ∀ c ∈ whole, c.isDigit = true
  fraction_ne_nil : ∀ ds ∈ fraction, ds ≠ []
  fraction_digits : ∀ ds ∈ fraction, ∀ c ∈ ds, c.isDigit = true

namespace Plain

/-- The sign as it is written. -/
def sign (n : Plain) : List Char := if n.negative then ['-'] else []

/-- The point and the digits after it, if there are any. -/
def tail (n : Plain) : List Char := n.fraction.elim [] ('.' :: ·)

def chars (n : Plain) : List Char := n.sign ++ n.whole ++ n.tail

/-- The number that a plain numeral stands for. -/
def value (n : Plain) : Number :=
  match n.fraction with
  | none => .int (if n.negative then -natural n.whole else natural n.whole)
  | some ds => .real (.ofScientific n.negative (natural (n.whole ++ ds)) (0 - ds.length))

/-- An integer has few enough digits to be read; nothing limits the others. -/
def Within (n : Plain) : Prop := n.fraction = none → n.whole.length ≤ digitLimit

end Plain

/-! ### Characters of a numeral -/

theorem isMargin_of_isDigit {c : Char} (h : c.isDigit = true) : isMargin c = false := by
  have hc := Char.isDigit_iff_toNat.1 h
  have h0 : '0'.toNat = 48 := rfl
  have h9 : '9'.toNat = 57 := rfl
  have : isBlank c = false := isBlank_of_visible (by omega) (by omega)
  simp [isMargin, this]

theorem trim_eq_self {cs : List Char} (h : ∀ c ∈ cs, isMargin c = false) : trim cs = cs := by
  have keep : ∀ {ds : List Char}, (∀ c ∈ ds, isMargin c = false) → ds.dropWhile isMargin = ds := by
    intro ds hds
    cases ds with
    | nil => rfl
    | cons d ds => simp [hds d (by simp)]
  rw [trim, keep h, keep fun c hc => h c (List.mem_reverse.1 hc), List.reverse_reverse]

theorem inRun_of_isDigit {c : Char} (h : c.isDigit = true) : inRun c = true := by
  simp [inRun, plainDigit?_of_isDigit h]

theorem ne_point_of_isDigit {c : Char} (h : c.isDigit = true) : (c != '.') = true := by
  simpa using ne_of_class h (d := '.') rfl

namespace Plain
variable (n : Plain)

theorem mem_chars {c : Char} (h : c ∈ n.chars) : c.isDigit = true ∨ c = '-' ∨ c = '.' := by
  simp only [chars, List.mem_append] at h
  rcases h with (h | h) | h
  · cases hn : n.negative <;> simp [sign, hn] at h
    exact Or.inr (Or.inl h)
  · exact Or.inl (n.whole_digits c h)
  · cases hf : n.fraction with
    | none => simp [tail, hf] at h
    | some ds =>
      simp only [tail, hf, Option.elim_some, List.mem_cons] at h
      rcases h with rfl | h
      · exact Or.inr (Or.inr rfl)
      · exact Or.inl (n.fraction_digits ds hf c h)

theorem trim_chars : trim n.chars = n.chars := by
  refine trim_eq_self fun c hc => ?_
  rcases n.mem_chars hc with h | rfl | rfl
  · exact isMargin_of_isDigit h
  · decide
  · decide

/-- The text after the sign begins with a digit. -/
theorem exists_whole_cons : ∃ d ds, n.whole = d :: ds ∧ d.isDigit = true := by
  cases h : n.whole with
  | nil => exact absurd h n.whole_ne_nil
  | cons d ds => exact ⟨d, ds, rfl, n.whole_digits d (by simp [h])⟩

theorem chars_of_negative (hn : n.negative = true) : n.chars = '-' :: (n.whole ++ n.tail) := by
  simp [chars, sign, hn]

theorem chars_of_positive (hn : n.negative = false) : n.chars = n.whole ++ n.tail := by
  simp [chars, sign, hn]

/-- A text that begins with a digit has no sign to split off. -/
theorem split_of_isDigit {d : Char} {cs : List Char} (hd : d.isDigit = true) :
    splitSign (d :: cs) = (false, d :: cs) ∧ splitMinus (d :: cs) = (false, d :: cs) := by
  have hminus := ne_of_class hd (d := '-') rfl
  have hplus := ne_of_class hd (d := '+') rfl
  constructor
  · unfold splitSign
    split <;> simp_all
  · unfold splitMinus
    split <;> simp_all

theorem splitSign_chars : splitSign n.chars = (n.negative, n.whole ++ n.tail) := by
  obtain ⟨d, ds, hw, hd⟩ := n.exists_whole_cons
  cases hn : n.negative
  · rw [n.chars_of_positive hn, hw, List.cons_append]
    exact (split_of_isDigit hd).1
  · rw [n.chars_of_negative hn]
    rfl

theorem splitMinus_chars : splitMinus n.chars = (n.negative, n.whole ++ n.tail) := by
  obtain ⟨d, ds, hw, hd⟩ := n.exists_whole_cons
  cases hn : n.negative
  · rw [n.chars_of_positive hn, hw, List.cons_append]
    exact (split_of_isDigit hd).2
  · rw [n.chars_of_negative hn]
    rfl

theorem stops_tail : Stops (· != '.') n.tail := by
  cases hf : n.fraction <;> simp [tail, hf]

theorem whole_before_point : ∀ c ∈ n.whole, (c != '.') = true := fun c hc => ne_point_of_isDigit (n.whole_digits c hc)

end Plain

/-! ### Recognising -/

theorem isNumeral_chars (n : Plain) : isNumeral n.chars = true := by
  have hwhole : n.whole.all Char.isDigit = true := List.all_eq_true.2 n.whole_digits
  unfold isNumeral
  simp only [n.splitMinus_chars, takeWhile_run n.whole_before_point n.stops_tail,
    dropWhile_run n.whole_before_point n.stops_tail, hwhole, Bool.and_true, Bool.and_eq_true, Bool.not_eq_true',
    List.isEmpty_eq_false_iff]
  refine ⟨n.whole_ne_nil, ?_⟩
  cases hf : n.fraction with
  | none => simp [Plain.tail, hf]
  | some ds =>
    simp only [Plain.tail, hf, Option.elim_some, Bool.and_eq_true, Bool.not_eq_true', List.isEmpty_eq_false_iff,
      List.all_eq_true]
    exact ⟨n.fraction_ne_nil ds hf, n.fraction_digits ds hf⟩

/-- The plain numerals are the texts of the plain form. -/
theorem isNumeral_iff {cs : List Char} : isNumeral cs = true ↔ ∃ n : Plain, n.chars = cs := by
  constructor
  · intro h
    have hsign : (if (splitMinus cs).1 then ['-'] else []) ++ (splitMinus cs).2 = cs := by
      unfold splitMinus
      split <;> rfl
    simp only [isNumeral, Bool.and_eq_true, Bool.not_eq_true', List.isEmpty_eq_false_iff, List.all_eq_true] at h
    obtain ⟨⟨hne, hwhole⟩, htail⟩ := h
    have hbody := List.takeWhile_append_dropWhile (p := (· != '.')) (l := (splitMinus cs).2)
    split at htail
    · rename_i hdrop
      refine ⟨⟨(splitMinus cs).1, _, none, hne, hwhole, by simp, by simp⟩, ?_⟩
      rw [hdrop] at hbody
      show _ ++ _ ++ [] = cs
      rw [List.append_assoc, hbody]
      exact hsign
    · rename_i point fraction hdrop
      have hpoint : point = '.' := by simpa [hdrop] using stops_dropWhile (p := (· != '.')) (splitMinus cs).2
      simp only [Bool.and_eq_true, Bool.not_eq_true', List.isEmpty_eq_false_iff, List.all_eq_true] at htail
      refine ⟨⟨(splitMinus cs).1, _, some fraction, hne, hwhole, by simpa using htail.1, by simpa using htail.2⟩, ?_⟩
      rw [hdrop, hpoint] at hbody
      show _ ++ _ ++ '.' :: fraction = cs
      rw [List.append_assoc, hbody]
      exact hsign
  · rintro ⟨n, rfl⟩
    exact isNumeral_chars n

/-! ### Reading -/

/-- An integer in plain form is read as its value, or has too many digits. -/
theorem readInteger_chars {n : Plain} (hf : n.fraction = none) :
    readInteger n.chars = if digitLimit < n.whole.length then .error (.tooManyDigits ⟨n.whole.length⟩)
      else .ok (if n.negative then -natural n.whole else natural n.whole) := by
  have hrun : ∀ c ∈ n.whole, inRun c = true := fun c hc => inRun_of_isDigit (n.whole_digits c hc)
  have htail : n.tail = [] := by simp [Plain.tail, hf]
  unfold readInteger
  simp only [n.trim_chars, n.splitSign_chars, htail, List.append_nil, List.takeWhile_eq_self_iff.2 hrun,
    List.dropWhile_eq_nil_iff.2 hrun, plainDigits?_of_digits n.whole_ne_nil n.whole_digits, List.isEmpty_nil,
    ite_true]

/-- A numeral with a point is read as its value. -/
theorem decimal?_chars {n : Plain} {ds : List Char} (hf : n.fraction = some ds) :
    decimal? n.chars = some (.ofScientific n.negative (natural (n.whole ++ ds)) (0 - ds.length)) := by
  have htail : n.tail = '.' :: ds := by simp [Plain.tail, hf]
  have hne := n.fraction_ne_nil ds hf
  have hmark : ∀ c ∈ n.whole ++ '.' :: ds, (!isExponentMark c) = true := by
    have digit : ∀ {c : Char}, c.isDigit = true → (!isExponentMark c) = true := fun {c} h => by
      simp [isExponentMark, ne_of_class h (d := 'e') rfl, ne_of_class h (d := 'E') rfl]
    intro c hc
    rcases List.mem_append.1 hc with hc | hc
    · exact digit (n.whole_digits c hc)
    · rcases List.mem_cons.1 hc with rfl | hc
      · decide
      · exact digit (n.fraction_digits ds hf c hc)
  have hmantissa : mantissa? (n.whole ++ '.' :: ds) = some (n.whole, ds) := by
    have hstop : Stops (· != '.') ('.' :: ds) := by simp
    simp [mantissa?, takeWhile_run n.whole_before_point hstop, dropWhile_run n.whole_before_point hstop, partDigits?,
      n.whole_ne_nil, hne, plainDigits?_of_digits n.whole_ne_nil n.whole_digits,
      plainDigits?_of_digits hne (n.fraction_digits ds hf)]
  simp only [decimal?, n.splitSign_chars, htail, List.takeWhile_eq_self_iff.2 hmark,
    List.dropWhile_eq_nil_iff.2 hmark, hmantissa, power?]
  rfl

theorem contains_point {n : Plain} : n.chars.contains '.' = n.fraction.isSome := by
  have hwhole : '.' ∉ n.whole := fun h => by
    have := n.whole_digits '.' h
    cases this
  have hsign : '.' ∉ n.sign := by
    unfold Plain.sign
    split <;> decide
  rw [Bool.eq_iff_iff, List.contains_iff_mem]
  cases hf : n.fraction <;> simp [Plain.chars, Plain.tail, hf, hwhole, hsign]

theorem point_mem_iff {n : Plain} : '.' ∈ n.chars ↔ n.fraction.isSome = true := by
  rw [← contains_point, List.contains_iff_mem]

/-- A numeral with a point is a floating point number, and one without is an integer. -/
theorem value_real_iff {n : Plain} : (∃ x, n.value = .real x) ↔ '.' ∈ n.chars := by
  rw [point_mem_iff]
  unfold Plain.value
  cases n.fraction <;> simp

theorem digits_of_integer {n : Plain} (h : n.fraction = none) : n.chars.filter Char.isDigit = n.whole := by
  have hsign : n.sign.filter Char.isDigit = [] := by
    unfold Plain.sign
    split <;> rfl
  rw [Plain.chars, Plain.tail, h, Option.elim_none, List.append_nil, List.filter_append, hsign, List.nil_append,
    List.filter_eq_self.2 n.whole_digits]

/-- What a plain numeral is read as. -/
theorem read_chars (n : Plain) : read n.chars =
    if n.fraction = none ∧ digitLimit < n.whole.length then .error (.tooManyDigits ⟨n.whole.length⟩)
    else .ok n.value := by
  unfold read
  rw [contains_point]
  cases hf : n.fraction with
  | none =>
    simp only [Option.isSome_none, Bool.false_eq_true, if_false, readInteger_chars hf, true_and, Plain.value, hf]
    split <;> rfl
  | some ds =>
    simp only [Option.isSome_some, if_true, n.trim_chars, decimal?_chars hf, Plain.value, hf, reduceCtorEq,
      false_and, if_false]

theorem read_of_within {n : Plain} (h : n.Within) : read n.chars = .ok n.value := by
  rw [read_chars, if_neg]
  rintro ⟨hf, hlt⟩
  exact absurd (h hf) (Nat.not_le.2 hlt)

/-! ### Integers in decimal -/

/-- The numeral of an integer. -/
def Plain.ofInt (n : Int) : Plain where
  negative := n < 0
  whole := Nat.toDigits 10 n.natAbs
  fraction := none
  whole_ne_nil := Nat.toDigits_ne_nil
  whole_digits := fun _ => Nat.isDigit_of_mem_toDigits (by decide) (Nat.le_refl _)
  fraction_ne_nil := by simp
  fraction_digits := by simp

theorem chars_ofInt (n : Int) : (Plain.ofInt n).chars = Number.intText n := by
  rw [Number.intText, Plain.chars, Plain.sign, Plain.tail, Plain.ofInt]
  by_cases hn : n < 0 <;> simp [hn]

theorem value_ofInt (n : Int) : (Plain.ofInt n).value = .int n := by
  have hdigits : natural (Plain.ofInt n).whole = n.natAbs := Nat.ofDigitChars_ten_toDigits
  have hsign : (Plain.ofInt n).negative = decide (n < 0) := rfl
  have hvalue : (if (Plain.ofInt n).negative then -((n.natAbs : Nat) : Int) else (n.natAbs : Nat)) = n := by
    rw [hsign]
    simp only [decide_eq_true_eq]
    omega
  show Number.int _ = .int n
  rw [hdigits, hvalue]

end Appraisal.Numeral
