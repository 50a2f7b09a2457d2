import Appraisal.Citation.Stamp

/-! When there is a stamp and what it is made of. A moment whose date in UTC is in the calendar has a stamp
    (`exists_stamp`), and stamps are made of digits and five marks (`isStampChar_of_mem`). -/

namespace Appraisal.Citation

/-! ### The ends of the calendar -/

namespace Date

theorem eq_first_of_previous? {d : Date} (hd : d.Valid) (h : d.previous? = none) : d = ⟨1, 1, 1⟩ := by
  obtain ⟨year, month, day⟩ := d
  obtain ⟨hyear, -, hmonth, -, hday, -⟩ := hd
  unfold previous? at h
  split at h
  · cases h
  split at h
  · cases h
  split at h
  · cases h
  rename_i hfirst hjanuary hyears
  obtain rfl : month = 1 := Nat.le_antisymm (Nat.not_lt.1 hjanuary) hmonth
  obtain rfl : year = 1 := Nat.le_antisymm (Nat.not_lt.1 hyears) hyear
  obtain rfl : day = 1 := Nat.le_antisymm (Nat.not_lt.1 hfirst) hday
  rfl

theorem eq_last_of_next? {d : Date} (hd : d.Valid) (h : d.next? = none) : d = ⟨9999, 12, 31⟩ := by
  obtain ⟨year, month, day⟩ := d
  obtain ⟨-, hyear, -, hmonth, -, hday⟩ := hd
  unfold next? at h
  split at h
  · cases h
  split at h
  · cases h
  split at h
  · cases h
  rename_i hlast hdecember hyears
  obtain rfl : month = 12 := Nat.le_antisymm hmonth (Nat.not_lt.1 hdecember)
  obtain rfl : year = 9999 := Nat.le_antisymm hyear (Nat.not_lt.1 hyears)
  obtain rfl : day = 31 := Nat.le_antisymm hday (Nat.not_lt.1 hlast)
  rfl

end Date

namespace Moment

/-- The date of the moment is in the calendar, and its date in UTC is neither before the first day nor after the
    last. -/
structure InRange (m : Moment) : Prop where
  date : m.date.Valid
  first : m.date = ⟨1, 1, 1⟩ → 0 ≤ m.utcSeconds
  last : m.date = ⟨9999, 12, 31⟩ → m.utcSeconds < secondsPerDay

theorem exists_utc {m : Moment} (h : m.InRange) : ∃ utc, m.utc? = some utc := by
  rw [← Option.ne_none_iff_exists']
  intro hnone
  unfold utc? at hnone
  simp only at hnone
  split at hnone
  · rename_i hbefore
    have hdate := Date.eq_first_of_previous? h.date (Option.map_eq_none_iff.1 hnone)
    have := h.first hdate
    omega
  split at hnone
  · cases hnone
  · rename_i hafter
    have hdate := Date.eq_last_of_next? h.date (Option.map_eq_none_iff.1 hnone)
    exact hafter (h.last hdate)

theorem exists_stamp {m : Moment} (h : m.InRange) : ∃ s, m.stamp = .ok s := by
  obtain ⟨utc, hutc⟩ := exists_utc h
  unfold stamp
  rw [hutc]
  exact ⟨_, rfl⟩

/-- No other moments with a date of the calendar have a stamp. -/
theorem inRange_of_stamp {m : Moment} (hdate : m.date.Valid) {s : String} (h : m.stamp = .ok s) : m.InRange := by
  have hutc : m.utc? ≠ none := by
    intro hnone
    rw [stamp, hnone] at h
    cases h
  refine ⟨hdate, fun hfirst => Int.not_lt.1 fun hbefore => hutc ?_, fun hlast => Int.not_le.1 fun hafter => hutc ?_⟩
  · rw [utc?, if_pos hbefore, hfirst]
    rfl
  · have hday : 0 < secondsPerDay := by decide
    rw [utc?, if_neg (by omega), if_neg (by omega), hlast]
    rfl

/-! ### Characters of a stamp -/

def isStampChar (c : Char) : Bool := c.isDigit || ['-', 'T', ':', '.', 'Z'].contains c

theorem isDigit_of_mem_padded {width n : Nat} {c : Char} (hc : c ∈ padded width n) : c.isDigit = true := by
  rcases List.mem_append.1 hc with hc | hc
  · obtain ⟨-, rfl⟩ := List.mem_replicate.1 hc
    rfl
  · exact Nat.isDigit_of_mem_toDigits (by decide) (Nat.le_refl _) hc

theorem isStampChar_of_mem_padded {width n : Nat} : ∀ c ∈ padded width n, isStampChar c = true := by
  intro c hc
  rw [isStampChar, isDigit_of_mem_padded hc, Bool.true_or]

theorem isStampChar_of_mem_stampText (d : Date) (seconds microsecond : Nat) :
    ∀ c ∈ stampText d seconds microsecond, isStampChar c = true := by
  have hpadded : ∀ {width n : Nat}, ∀ c ∈ padded width n, isStampChar c = true := isStampChar_of_mem_padded
  simp only [stampText, List.forall_mem_append, List.forall_mem_cons]
  exact ⟨⟨⟨⟨⟨⟨⟨hpadded, rfl, hpadded⟩, rfl, hpadded⟩, rfl, hpadded⟩, rfl, hpadded⟩, rfl, hpadded⟩, rfl, hpadded⟩, rfl,
    nofun⟩

theorem isStampChar_of_mem {m : Moment} {s : String} (h : m.stamp = .ok s) {c : Char} (hc : c ∈ s.toList) :
    isStampChar c = true := by
  unfold stamp at h
  split at h
  · injection h with h
    subst h
    rw [String.toList_ofList] at hc
    exact isStampChar_of_mem_stampText _ _ _ c hc
  · cases h

/-- The characters of a stamp stand between the first and the last mark by code point. -/
theorem bounds_of_isStampChar {c : Char} (h : isStampChar c = true) : 0x2D ≤ c.toNat ∧ c.toNat ≤ 0x5A := by
  rw [isStampChar, Bool.or_eq_true] at h
  rcases h with h | h
  · have hdigit := Char.isDigit_iff_toNat.1 h
    have h0 : '0'.toNat = 48 := rfl
    have h9 : '9'.toNat = 57 := rfl
    omega
  · have hmark := List.contains_iff_mem.1 h
    simp only [List.mem_cons, List.not_mem_nil, or_false] at hmark
    rcases hmark with rfl | rfl | rfl | rfl | rfl
    all_goals decide

end Moment
end Appraisal.Citation
