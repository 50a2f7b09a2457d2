import Appraisal.Proofs.Citation.Stamp
import Mathlib.Algebra.BigOperators.Intervals
import Mathlib.Algebra.Order.BigOperators.Group.Finset
import Mathlib.Order.Interval.Finset.Nat

/-! The calendar in days. Days are counted from the first of January of the year 1 (`dayNumber`); the day after a date
    and the day before it have the numbers next to its own, and dates follow each other as year, month and day do. -/

namespace Appraisal.Citation.Date

/-- The days before a year: every fourth year has one more, but of the full centuries only every fourth one. -/
def daysBeforeYear (year : Nat) : Nat := 365 * (year - 1) + (year - 1) / 4 - (year - 1) / 100 + (year - 1) / 400

def daysBeforeMonth (year month : Nat) : Nat := ∑ m ∈ Finset.Ico 1 month, daysIn year m

/-- The days before a date. -/
def dayNumber (d : Date) : Nat := daysBeforeYear d.year + daysBeforeMonth d.year d.month + (d.day - 1)

variable {d e : Date} {year month : Nat}

/-! ### Months and years -/

theorem daysBeforeMonth_succ (hmonth : 1 ≤ month) :
    daysBeforeMonth year (month + 1) = daysBeforeMonth year month + daysIn year month :=
  Finset.sum_Ico_succ_top hmonth _

theorem daysBeforeMonth_mono (year : Nat) : Monotone (daysBeforeMonth year) :=
  fun _ _ h => Finset.sum_le_sum_of_subset (Finset.Ico_subset_Ico_right h)

theorem daysBeforeMonth_thirteen (year : Nat) : daysBeforeMonth year 13 = if isLeapYear year then 366 else 365 := by
  unfold daysBeforeMonth daysIn
  split <;> rfl

theorem isLeapYear_iff : isLeapYear year = true ↔ 4 ∣ year ∧ (¬ 100 ∣ year ∨ 400 ∣ year) := by
  simp [isLeapYear, Nat.dvd_iff_mod_eq_zero]

theorem daysBeforeYear_succ (hyear : 1 ≤ year) :
    daysBeforeYear (year + 1) = daysBeforeYear year + daysBeforeMonth year 13 := by
  obtain ⟨y, rfl⟩ := Nat.exists_eq_add_of_le' hyear
  have h100 : 400 ∣ y + 1 → 100 ∣ y + 1 := Nat.dvd_trans (by decide)
  have h4 : 100 ∣ y + 1 → 4 ∣ y + 1 := Nat.dvd_trans (by decide)
  have hcenturies : y / 100 ≤ y / 4 := Nat.div_le_div_left (by decide) (by decide)
  -- A quotient grows exactly where its divisor divides the year, so the cases are those of the leap year.
  simp only [daysBeforeMonth_thirteen, isLeapYear_iff, daysBeforeYear, Nat.add_sub_cancel, Nat.succ_div]
  by_cases hfour : 4 ∣ y + 1
  · by_cases hcentury : 100 ∣ y + 1
    · by_cases hfourth : 400 ∣ y + 1
      · simp only [hfour, hcentury, hfourth, not_true, or_true, and_true, if_true]
        omega
      · simp only [hfour, hcentury, hfourth, not_true, or_false, and_false, if_true, if_false]
        omega
    · simp only [hfour, hcentury, mt h100 hcentury, not_false_eq_true, or_false, and_true, if_true, if_false]
      omega
  · simp only [hfour, mt h4 hfour, mt (h4 ∘ h100) hfour, false_and, if_false]
    omega

theorem daysBeforeYear_mono : Monotone daysBeforeYear := by
  refine monotone_nat_of_le_succ fun year => ?_
  rcases Nat.eq_zero_or_pos year with rfl | hyear
  · exact Nat.le_refl _
  · exact daysBeforeYear_succ hyear ▸ Nat.le_add_right _ _

theorem daysIn_pos (year month : Nat) : 1 ≤ daysIn year month := by
  unfold daysIn
  split_ifs <;> decide

theorem daysIn_le (year month : Nat) : daysIn year month ≤ 31 := by
  unfold daysIn
  split_ifs <;> decide

/-! ### The next day and the day before -/

theorem dayNumber_next_day {day : Nat} (hday : 1 ≤ day) :
    dayNumber ⟨year, month, day + 1⟩ = dayNumber ⟨year, month, day⟩ + 1 := by
  simp only [dayNumber]
  omega

theorem dayNumber_next_month (hmonth : 1 ≤ month) :
    dayNumber ⟨year, month + 1, 1⟩ = dayNumber ⟨year, month, daysIn year month⟩ + 1 := by
  have hdays := daysIn_pos year month
  simp only [dayNumber, daysBeforeMonth_succ hmonth]
  omega

theorem dayNumber_next_year (hyear : 1 ≤ year) : dayNumber ⟨year + 1, 1, 1⟩ = dayNumber ⟨year, 12, 31⟩ + 1 := by
  have hdecember : daysBeforeMonth year 13 = daysBeforeMonth year 12 + 31 := daysBeforeMonth_succ (by decide)
  have hjanuary : daysBeforeMonth (year + 1) 1 = 0 := rfl
  simp only [dayNumber, daysBeforeYear_succ hyear]
  omega

theorem valid_mk {year month day : Nat} : Valid ⟨year, month, day⟩ ↔
    1 ≤ year ∧ year ≤ 9999 ∧ 1 ≤ month ∧ month ≤ 12 ∧ 1 ≤ day ∧ day ≤ daysIn year month :=
  Iff.rfl

theorem next?_spec (hd : d.Valid) (h : d.next? = some e) : e.Valid ∧ e.dayNumber = d.dayNumber + 1 := by
  obtain ⟨year, month, day⟩ := d
  obtain ⟨hyear, hyear', hmonth, hmonth', hday, hday'⟩ := valid_mk.1 hd
  simp only [next?] at h
  split at h
  · rename_i hbefore
    obtain rfl := Option.some.inj h
    exact ⟨valid_mk.2 (by omega), dayNumber_next_day hday⟩
  obtain rfl : day = daysIn year month := by omega
  have hfirst := daysIn_pos year (month + 1)
  split at h
  · rename_i hbefore
    obtain rfl := Option.some.inj h
    exact ⟨valid_mk.2 (by omega), dayNumber_next_month hmonth⟩
  obtain rfl : month = 12 := by omega
  have hfirst := daysIn_pos (year + 1) 1
  split at h
  · rename_i hbefore
    obtain rfl := Option.some.inj h
    exact ⟨valid_mk.2 (by omega), dayNumber_next_year hyear⟩
  · cases h

theorem previous?_spec (hd : d.Valid) (h : d.previous? = some e) : e.Valid ∧ d.dayNumber = e.dayNumber + 1 := by
  obtain ⟨year, month, day⟩ := d
  obtain ⟨hyear, hyear', hmonth, hmonth', hday, hday'⟩ := valid_mk.1 hd
  simp only [previous?] at h
  split at h
  · obtain ⟨day, rfl⟩ := Nat.exists_eq_add_of_le' hday
    obtain rfl := Option.some.inj h
    exact ⟨valid_mk.2 (by omega), dayNumber_next_day (by omega)⟩
  obtain rfl : day = 1 := by omega
  split at h
  · obtain ⟨month, rfl⟩ := Nat.exists_eq_add_of_le' hmonth
    obtain rfl := Option.some.inj h
    have hlast := daysIn_pos year month
    simp only [Nat.add_sub_cancel]
    exact ⟨valid_mk.2 (by omega), dayNumber_next_month (by omega)⟩
  obtain rfl : month = 1 := by omega
  split at h
  · obtain ⟨year, rfl⟩ := Nat.exists_eq_add_of_le' hyear
    obtain rfl := Option.some.inj h
    have hlast : daysIn year 12 = 31 := rfl
    simp only [Nat.add_sub_cancel]
    exact ⟨valid_mk.2 (by omega), dayNumber_next_year (by omega)⟩
  · cases h

/-! ### Dates in order -/

theorem dayNumber_lt_daysBeforeMonth (hd : d.Valid) :
    d.dayNumber < daysBeforeYear d.year + daysBeforeMonth d.year (d.month + 1) := by
  obtain ⟨-, -, hmonth, -, hday, hday'⟩ := hd
  have hnext : daysBeforeMonth d.year (d.month + 1) = _ := daysBeforeMonth_succ hmonth
  simp only [dayNumber]
  omega

theorem dayNumber_lt_daysBeforeYear (hd : d.Valid) : d.dayNumber < daysBeforeYear (d.year + 1) := by
  have hmonths : daysBeforeMonth d.year (d.month + 1) ≤ daysBeforeMonth d.year 13 :=
    daysBeforeMonth_mono _ (Nat.succ_le_succ hd.2.2.2.1)
  calc d.dayNumber < daysBeforeYear d.year + daysBeforeMonth d.year (d.month + 1) := dayNumber_lt_daysBeforeMonth hd
    _ ≤ daysBeforeYear d.year + daysBeforeMonth d.year 13 := Nat.add_le_add_left hmonths _
    _ = daysBeforeYear (d.year + 1) := (daysBeforeYear_succ hd.1).symm

/-- Dates follow each other by the year, in a year by the month, and in a month by the day. -/
theorem dayNumber_lt (hd : d.Valid)
    (h : d.year < e.year ∨ d.year = e.year ∧ (d.month < e.month ∨ d.month = e.month ∧ d.day < e.day)) :
    d.dayNumber < e.dayNumber := by
  rcases h with hyear | ⟨hyear, hmonth | ⟨hmonth, hday⟩⟩
  · calc d.dayNumber < daysBeforeYear (d.year + 1) := dayNumber_lt_daysBeforeYear hd
      _ ≤ daysBeforeYear e.year := daysBeforeYear_mono hyear
      _ ≤ e.dayNumber := by simp only [dayNumber]; omega
  · calc d.dayNumber < daysBeforeYear d.year + daysBeforeMonth d.year (d.month + 1) := dayNumber_lt_daysBeforeMonth hd
      _ ≤ daysBeforeYear e.year + daysBeforeMonth e.year e.month :=
        hyear ▸ Nat.add_le_add_left (daysBeforeMonth_mono _ hmonth) _
      _ ≤ e.dayNumber := Nat.le_add_right _ _
  · have := hd.2.2.2.2.1
    simp only [dayNumber, hyear, hmonth]
    omega

/-- The year 10000 is not reached. -/
theorem dayNumber_lt_end (hd : d.Valid) : d.dayNumber < daysBeforeYear 10000 :=
  Nat.lt_of_lt_of_le (dayNumber_lt_daysBeforeYear hd) (daysBeforeYear_mono (Nat.succ_le_succ hd.2.1))

end Appraisal.Citation.Date
