import Appraisal.Proofs.Citation.Calendar
import Appraisal.Proofs.Number.Digits

/-! Stamps in the order of time. The time of a moment is counted in microseconds from the beginning of the calendar
    (`instant`); a stamp denotes a time in milliseconds if that is the reading of the clock it writes (`Denotes`).
    A moment has a stamp exactly if its time is in the calendar, the stamp denotes that time cut to milliseconds, and
    stamps compare as the times they denote (`stamp_chronology`). -/

namespace Appraisal.Citation
open Numeral

/-! ### Readings of the clock -/

/-- A date and a time of its day, to the millisecond. -/
structure Reading where
  date : Date
  hour : Nat
  minute : Nat
  second : Nat
  millisecond : Nat

namespace Reading

structure Valid (r : Reading) : Prop where
  date : r.date.Valid
  hour : r.hour < 24
  minute : r.minute < 60
  second : r.second < 60
  millisecond : r.millisecond < 1000

/-- The numbers of a reading, the largest units first. -/
def numbers (r : Reading) : List Nat :=
  [r.date.year, r.date.month, r.date.day, r.hour, r.minute, r.second, r.millisecond]

/-- The milliseconds from the beginning of the calendar to a reading. -/
def milliseconds (r : Reading) : Nat :=
  (((r.date.dayNumber * 24 + r.hour) * 60 + r.minute) * 60 + r.second) * 1000 + r.millisecond

theorem numbers_injective : Function.Injective numbers := by
  rintro ⟨⟨_, _, _⟩, _, _, _, _⟩ ⟨⟨_, _, _⟩, _, _, _, _⟩ h
  simp only [numbers, List.cons.injEq, and_true] at h
  obtain ⟨rfl, rfl, rfl, rfl, rfl, rfl, rfl⟩ := h
  rfl

/-- Readings in the order of their numbers. -/
instance : LinearOrder Reading := LinearOrder.lift' numbers numbers_injective

theorem strictMonoOn_milliseconds : StrictMonoOn milliseconds {r | r.Valid} := by
  intro r hr r' _ h
  replace h : r.numbers < r'.numbers := h
  simp only [numbers, List.cons_lt_cons_iff, List.not_lt_nil, and_false, or_false] at h
  obtain ⟨hdate, hhour, hminute, hsecond, hmillisecond⟩ := hr
  -- Only here does the calendar come in: from the dates to the days; the rest is a matter of units.
  have hdays : r.date.dayNumber < r'.date.dayNumber ∨ r.date.dayNumber = r'.date.dayNumber ∧
      (r.hour < r'.hour ∨ r.hour = r'.hour ∧ (r.minute < r'.minute ∨ r.minute = r'.minute ∧
        (r.second < r'.second ∨ r.second = r'.second ∧ r.millisecond < r'.millisecond))) := by
    rcases h with hyear | ⟨hyear, hmonth | ⟨hmonth, hday | ⟨hday, htime⟩⟩⟩
    · exact .inl (Date.dayNumber_lt hdate (.inl hyear))
    · exact .inl (Date.dayNumber_lt hdate (.inr ⟨hyear, .inl hmonth⟩))
    · exact .inl (Date.dayNumber_lt hdate (.inr ⟨hyear, .inr ⟨hmonth, hday⟩⟩))
    · refine .inr ⟨?_, htime⟩
      rw [Date.dayNumber, Date.dayNumber, hyear, hmonth, hday]
  unfold milliseconds
  omega

end Reading

/-! ### Stamps -/

/-- The fields of `YYYY-MM-DDTHH:MM:SS.mmmZ`. -/
def stampFields : List (Nat × Char) :=
  [(4, '-'), (2, '-'), (2, 'T'), (2, ':'), (2, ':'), (2, '.'), (3, 'Z')]

/-- A text denotes a time, in milliseconds from the beginning of the calendar, if it writes the reading at that time
    in the fields of a stamp. -/
def Denotes (s : String) (time : Int) : Prop :=
  ∃ r : Reading, r.Valid ∧ Fields stampFields r.numbers s.toList ∧ time = r.milliseconds

namespace Denotes

variable {s t : String} {time time' : Int}

theorem length_eq (h : Denotes s time) : s.length = 24 := by
  obtain ⟨r, -, hfields, -⟩ := h
  rw [← String.length_toList, hfields.length_eq]
  rfl

theorem eq_iff (h : Denotes s time) (h' : Denotes t time') : s = t ↔ time = time' := by
  obtain ⟨r, hr, hfields, rfl⟩ := h
  obtain ⟨r', hr', hfields', rfl⟩ := h'
  rw [← String.toList_inj, hfields.eq_iff hfields', Reading.numbers_injective.eq_iff, Int.natCast_inj,
    Reading.strictMonoOn_milliseconds.eq_iff_eq hr hr']

theorem lt_iff (h : Denotes s time) (h' : Denotes t time') : s < t ↔ time < time' := by
  obtain ⟨r, hr, hfields, rfl⟩ := h
  obtain ⟨r', hr', hfields', rfl⟩ := h'
  rw [Int.ofNat_lt, Reading.strictMonoOn_milliseconds.lt_iff_lt hr hr']
  exact hfields.lt_iff hfields'

end Denotes

namespace Moment

theorem padded_mem_digitRuns {width n : Nat} (hwidth : 0 < width) (hn : n < 10 ^ width) :
    padded width n ∈ digitRuns width := by
  have hlength := (Nat.length_toDigits_le_iff (b := 10) (by decide) hwidth).2 hn
  refine ⟨?_, fun c => isDigit_of_mem_padded⟩
  rw [padded, List.length_append, List.length_replicate]
  omega

theorem natural_padded (width n : Nat) : natural (padded width n) = n := by
  rw [natural, padded, Nat.ofDigitChars_append, Nat.ofDigitChars_replicate_zero, Nat.mul_zero,
    Nat.ofDigitChars_ten_toDigits]

theorem fields_padded {width n : Nat} {mark : Char} {fields : List (Nat × Char)} {ns : List Nat} {cs : List Char}
    (hwidth : 0 < width) (hn : n < 10 ^ width) (rest : Fields fields ns cs) :
    Fields ((width, mark) :: fields) (n :: ns) (padded width n ++ mark :: cs) := by
  have hcons : Fields ((width, mark) :: fields) (natural (padded width n) :: ns) (padded width n ++ mark :: cs) :=
    .cons (padded_mem_digitRuns hwidth hn) rest
  rwa [natural_padded] at hcons

/-- The reading of a date, the seconds since its beginning, and a fraction in microseconds. -/
def reading (d : Date) (seconds microsecond : Nat) : Reading :=
  ⟨d, seconds / 3600, seconds / 60 % 60, seconds % 60, microsecond / 1000⟩

variable {d : Date} {seconds microsecond : Nat}

theorem reading_valid (hd : d.Valid) (hseconds : seconds < 86400) (hmicrosecond : microsecond ≤ 999999) :
    (reading d seconds microsecond).Valid where
  date := hd
  hour := by simp only [reading]; omega
  minute := by simp only [reading]; omega
  second := by simp only [reading]; omega
  millisecond := by simp only [reading]; omega

theorem milliseconds_reading : (reading d seconds microsecond).milliseconds =
    (d.dayNumber * 86400 + seconds) * 1000 + microsecond / 1000 := by
  simp only [reading, Reading.milliseconds]
  omega

/-- A stamp writes the numbers of its reading in the fields of a stamp. -/
theorem fields_stampText (h : (reading d seconds microsecond).Valid) :
    Fields stampFields (reading d seconds microsecond).numbers (stampText d seconds microsecond) := by
  obtain ⟨⟨-, hyear, -, hmonth, -, hday⟩, hhour, hminute, hsecond, hmillisecond⟩ := h
  replace hday : (reading d seconds microsecond).date.day ≤ 31 := Nat.le_trans hday (Date.daysIn_le _ _)
  simp only [stampText, List.append_assoc, List.cons_append]
  refine fields_padded (Nat.succ_pos _) (Nat.lt_succ_of_le hyear) ?_
  refine fields_padded (Nat.succ_pos _) (by omega) ?_
  refine fields_padded (Nat.succ_pos _) (by omega) ?_
  refine fields_padded (Nat.succ_pos _) (Nat.lt_trans hhour (by omega)) ?_
  refine fields_padded (Nat.succ_pos _) (Nat.lt_trans hminute (by omega)) ?_
  refine fields_padded (Nat.succ_pos _) (Nat.lt_trans hsecond (by omega)) ?_
  exact fields_padded (Nat.succ_pos _) hmillisecond .nil

/-! ### Moments -/

/-- What is asked of the parts of a moment: a date and a time of the day that exist, and an offset shorter than a day. -/
structure Valid (m : Moment) : Prop where
  date : m.date.Valid
  hour : m.hour ≤ 23
  minute : m.minute ≤ 59
  second : m.second ≤ 59
  microsecond : m.microsecond ≤ 999999
  offset : ∀ seconds ∈ m.offset, -86400 < seconds ∧ seconds < 86400

theorem offset_of_offsetFault? {seconds : Int} (h : offsetFault? seconds = none) :
    -86400 < seconds ∧ seconds < 86400 := by
  have hperDay : secondsPerDay = 86400 := rfl
  simp only [offsetFault?] at h
  split_ifs at h with _ _ hday
  omega

theorem valid_of_ofParts {parts : List (Option Int)} {offset : Option Int} {m : Moment}
    (h : ofParts parts offset = .ok m) : m.Valid := by
  unfold ofParts at h
  split at h
  · cases h
  rename_i hfault
  have hoffset := (Option.or_eq_none_iff.1 hfault).1
  simp only at h
  split_ifs at h with hyear hmonth hday hhour hminute hsecond hmicrosecond
  obtain rfl := Except.ok.inj h
  refine ⟨Date.valid_mk.2 (by omega), by simp only; omega, by simp only; omega, by simp only; omega,
    by simp only; omega, ?_⟩
  rintro seconds rfl
  exact offset_of_offsetFault? hoffset

/-- The microseconds from the beginning of the calendar to a moment, by the clock of UTC. -/
def instant (m : Moment) : Int :=
  ((m.date.dayNumber * 86400 + m.hour * 3600 + m.minute * 60 + m.second : Nat) - m.offset.getD 0) * 1000000 +
    m.microsecond

/-- A time in the years 1 to 9999. -/
def InCalendar (time : Int) : Prop := 0 ≤ time ∧ time < (Date.daysBeforeYear 10000 * 86400 * 1000000 : Nat)

variable {m n : Moment}

theorem Valid.offset_getD (hm : m.Valid) : -86400 < m.offset.getD 0 ∧ m.offset.getD 0 < 86400 := by
  cases hoffset : m.offset with
  | none => decide
  | some seconds => exact hm.offset seconds hoffset

theorem Valid.utcSeconds_bounds (hm : m.Valid) : -86400 < m.utcSeconds ∧ m.utcSeconds < 2 * 86400 := by
  have hoffset := hm.offset_getD
  obtain ⟨-, hhour, hminute, hsecond, -, -⟩ := hm
  unfold Moment.utcSeconds
  omega

theorem instant_eq (m : Moment) :
    m.instant = (m.date.dayNumber * 86400 + m.utcSeconds) * 1000000 + m.microsecond := by
  unfold instant utcSeconds
  omega

/-- The date in UTC is at most a day off, and the seconds since its beginning make up for it. -/
theorem utc?_spec (hm : m.Valid) (h : m.utc? = some (d, seconds)) :
    d.Valid ∧ seconds < 86400 ∧ (d.dayNumber * 86400 + seconds : Int) = m.date.dayNumber * 86400 + m.utcSeconds := by
  have hbounds := hm.utcSeconds_bounds
  have hperDay : secondsPerDay = 86400 := rfl
  simp only [utc?] at h
  split at h
  · obtain ⟨e, he, heq⟩ := Option.map_eq_some_iff.1 h
    obtain ⟨rfl, rfl⟩ := Prod.mk.inj heq
    obtain ⟨hvalid, hnumber⟩ := Date.previous?_spec hm.date he
    exact ⟨hvalid, by omega, by omega⟩
  split at h
  · obtain ⟨rfl, rfl⟩ := Prod.mk.inj (Option.some.inj h)
    exact ⟨hm.date, by omega, by omega⟩
  · obtain ⟨e, he, heq⟩ := Option.map_eq_some_iff.1 h
    obtain ⟨rfl, rfl⟩ := Prod.mk.inj heq
    obtain ⟨hvalid, hnumber⟩ := Date.next?_spec hm.date he
    exact ⟨hvalid, by omega, by omega⟩

theorem inCalendar_of_utc? (hm : m.Valid) (h : m.utc? = some (d, seconds)) : InCalendar m.instant := by
  obtain ⟨hd, hseconds, htime⟩ := utc?_spec hm h
  have hdays := Date.dayNumber_lt_end hd
  have hmicrosecond := hm.microsecond
  rw [instant_eq, ← htime]
  unfold InCalendar
  omega

theorem inRange_iff (hm : m.Valid) : m.InRange ↔ InCalendar m.instant := by
  constructor
  · intro h
    obtain ⟨utc, hutc⟩ := exists_utc h
    exact inCalendar_of_utc? hm hutc
  · rw [instant_eq]
    rintro ⟨hbegin, hend⟩
    have hmicrosecond := hm.microsecond
    have hperDay : secondsPerDay = 86400 := rfl
    refine ⟨hm.date, fun hfirst => ?_, fun hlast => ?_⟩
    · have hnumber : m.date.dayNumber = 0 := hfirst ▸ rfl
      omega
    · have hnumber : m.date.dayNumber + 1 = Date.daysBeforeYear 10000 := hlast ▸ rfl
      omega

theorem stamp_eq_error_iff (hm : m.Valid) : m.stamp = .error ⟨⟩ ↔ ¬ InCalendar m.instant := by
  rw [← inRange_iff hm]
  constructor
  · intro h hrange
    obtain ⟨s, hs⟩ := exists_stamp hrange
    rw [hs] at h
    cases h
  · intro h
    cases hstamp : m.stamp with
    | ok s => exact absurd (inRange_of_stamp hm.date hstamp) h
    | error e => rfl

/-- A stamp denotes the time of its moment, cut to milliseconds. -/
theorem denotes_of_stamp {s : String} (hm : m.Valid) (h : m.stamp = .ok s) : Denotes s (m.instant / 1000) := by
  unfold stamp at h
  split at h
  · rename_i d seconds hutc
    obtain ⟨hd, hseconds, htime⟩ := utc?_spec hm hutc
    obtain rfl := Except.ok.inj h
    have hreading := reading_valid hd hseconds hm.microsecond
    refine ⟨_, hreading, ?_, ?_⟩
    · rw [String.toList_ofList]
      exact fields_stampText hreading
    · rw [milliseconds_reading, instant_eq, ← htime]
      omega
  · cases h

/-- A stamp reads the date, the seconds in UTC and the microseconds of its moment, nothing else. -/
theorem stamp_congr (hdate : m.date = n.date) (hseconds : m.utcSeconds = n.utcSeconds)
    (hmicrosecond : m.microsecond = n.microsecond) : m.stamp = n.stamp := by
  simp only [stamp, utc?, hdate, hseconds, hmicrosecond]

theorem stamp_without_offset (m : Moment) : { m with offset := none }.stamp = { m with offset := some 0 }.stamp :=
  stamp_congr rfl rfl rfl

/-- A valid moment has no stamp exactly if its time is outside the calendar. Otherwise its stamp has 24 characters and
    denotes its time cut to milliseconds; without an offset it is the stamp at offset zero. Two stamps are equal
    exactly if the times are in one millisecond, and one is before the other exactly if its millisecond is. -/
theorem stamp_chronology {m : Moment} (hm : m.Valid) :
    (m.stamp = .error ⟨⟩ ↔ ¬ InCalendar m.instant) ∧
    (InCalendar m.instant → ∃ s, m.stamp = .ok s ∧ s.length = 24 ∧ Denotes s (m.instant / 1000)) ∧
    { m with offset := none }.stamp = { m with offset := some 0 }.stamp ∧
    ∀ n : Moment, n.Valid → ∀ s t, m.stamp = .ok s → n.stamp = .ok t →
      (s = t ↔ m.instant / 1000 = n.instant / 1000) ∧ (s < t ↔ m.instant / 1000 < n.instant / 1000) ∧
      (s < t → m.instant < n.instant) ∧ (m.instant ≤ n.instant → s ≤ t) := by
  refine ⟨stamp_eq_error_iff hm, fun hcalendar => ?_, stamp_without_offset m, fun n hn s t hs ht => ?_⟩
  · obtain ⟨s, hs⟩ := exists_stamp ((inRange_iff hm).2 hcalendar)
    have hdenotes := denotes_of_stamp hm hs
    exact ⟨s, hs, hdenotes.length_eq, hdenotes⟩
  · have hdenotes := denotes_of_stamp hm hs
    have hdenotes' := denotes_of_stamp hn ht
    refine ⟨hdenotes.eq_iff hdenotes', hdenotes.lt_iff hdenotes', fun hlt => ?_, fun hle => ?_⟩
    · have hmilliseconds := (hdenotes.lt_iff hdenotes').1 hlt
      omega
    · rw [← String.not_lt, hdenotes'.lt_iff hdenotes]
      omega

theorem stamp_chronology_leap_day :
    let m : Moment := ⟨⟨2024, 3, 1⟩, 0, 30, 0, 678901, some 3600⟩
    let n : Moment := ⟨⟨2024, 2, 29⟩, 23, 30, 0, 678000, none⟩
    m.Valid ∧ n.Valid ∧ InCalendar m.instant ∧ InCalendar n.instant ∧ m.instant / 1000 = n.instant / 1000 ∧
      ∃ s, s.length = 24 ∧ m.stamp = .ok s ∧ n.stamp = .ok s := by
  intro m n
  have hm : m.Valid := ⟨Date.valid_mk.2 (by decide), by decide, by decide, by decide, by decide, by decide⟩
  have hn : n.Valid := ⟨Date.valid_mk.2 (by decide), by decide, by decide, by decide, by decide, by decide⟩
  have hin : InCalendar m.instant := ⟨by decide, by decide⟩
  have hin' : InCalendar n.instant := ⟨by decide, by decide⟩
  have htime : m.instant / 1000 = n.instant / 1000 := by decide
  obtain ⟨s, hs, hlength, -⟩ := (stamp_chronology hm).2.1 hin
  obtain ⟨t, ht, -, -⟩ := (stamp_chronology hn).2.1 hin'
  obtain rfl : s = t := ((stamp_chronology hm).2.2.2 n hn s t hs ht).1.2 htime
  exact ⟨hm, hn, hin, hin', htime, s, hlength, hs, ht⟩

end Moment
end Appraisal.Citation
