/-! Stamps: moments in UTC to the millisecond, as text. A moment may be given with an offset from UTC of less than a
    day, so its UTC date is the given one or a neighbour of it; a date outside the years 1 to 9999 has no stamp. -/

namespace Appraisal.Citation

structure Date where
  year : Nat
  month : Nat
  day : Nat
  deriving DecidableEq, Repr, Inhabited

namespace Date

def isLeapYear (year : Nat) : Bool := year % 4 == 0 && (year % 100 != 0 || year % 400 == 0)

def daysIn (year month : Nat) : Nat :=
  if month = 2 then if isLeapYear year then 29 else 28
  else if month = 4 ∨ month = 6 ∨ month = 9 ∨ month = 11 then 30
  else 31

def Valid (d : Date) : Prop :=
  1 ≤ d.year ∧ d.year ≤ 9999 ∧ 1 ≤ d.month ∧ d.month ≤ 12 ∧ 1 ≤ d.day ∧ d.day ≤ daysIn d.year d.month

def next? (d : Date) : Option Date :=
  if d.day < daysIn d.year d.month then some { d with day := d.day + 1 }
  else if d.month < 12 then some ⟨d.year, d.month + 1, 1⟩
  else if d.year < 9999 then some ⟨d.year + 1, 1, 1⟩
  else none

def previous? (d : Date) : Option Date :=
  if 1 < d.day then some { d with day := d.day - 1 }
  else if 1 < d.month then some ⟨d.year, d.month - 1, daysIn d.year (d.month - 1)⟩
  else if 1 < d.year then some ⟨d.year - 1, 12, 31⟩
  else none

end Date

/-- A moment of a day at some offset from UTC; without an offset it is in UTC. -/
structure Moment where
  date : Date
  hour : Nat
  minute : Nat
  second : Nat
  microsecond : Nat
  /-- Seconds east of UTC. -/
  offset : Option Int
  deriving DecidableEq, Repr, Inhabited

/-- Why some parts are no moment. -/
inductive InvalidMoment where
  /-- The offset does not fit in a duration, which counts its days in 32 bits. -/
  | duration
  /-- The offset has more days than a duration may have. -/
  | days (days : Int)
  /-- The offset is not shorter than a day. -/
  | offset (seconds : Int)
  /-- A part is no integer, or there are fewer parts than a date has or more than a moment has. -/
  | parts
  /-- A part does not fit in 64 bits. -/
  | partTooWide
  /-- A part is too large for 32 bits. -/
  | partTooLarge
  /-- A part is too small for 32 bits. -/
  | partTooSmall
  | year (year : Int)
  | month
  | day
  | hour
  | minute
  | second
  | microsecond
  deriving DecidableEq, Repr

/-- The most days that a duration may have, forward and back. -/
def dayLimit : Nat := 999999999

/-- A duration in whole days and seconds, as it is reported. -/
def durationText (seconds : Int) : String :=
  let days := seconds / 86400
  let rest := seconds % 86400
  "datetime.timedelta(days=" ++ toString days ++ (if rest = 0 then ")" else ", seconds=" ++ toString rest ++ ")")

/-- What is said about parts that are no moment; nothing about their number and their kind. -/
def InvalidMoment.message? : InvalidMoment → Option String
  | .duration => some "Python int too large to convert to C int"
  | .days n => some ("days=" ++ toString n ++ "; must have magnitude <= " ++ toString dayLimit)
  | .offset s => some ("offset must be a timedelta strictly between -timedelta(hours=24) and timedelta(hours=24), not "
      ++ durationText s ++ ".")
  | .parts => none
  | .partTooWide => some "Python int too large to convert to C long"
  | .partTooLarge => some "signed integer is greater than maximum"
  | .partTooSmall => some "signed integer is less than minimum"
  | .year y => some ("year " ++ toString y ++ " is out of range")
  | .month => some "month must be in 1..12"
  | .day => some "day is out of range for month"
  | .hour => some "hour must be in 0..23"
  | .minute => some "minute must be in 0..59"
  | .second => some "second must be in 0..59"
  | .microsecond => some "microsecond must be in 0..999999"

/-- What is wrong is the size of a number, whatever it stands for. -/
def InvalidMoment.isOverflow : InvalidMoment → Bool
  | .duration | .days _ | .partTooWide | .partTooLarge | .partTooSmall => true
  | _ => false

/-- The UTC date is outside the calendar. -/
structure OutOfCalendar where
  deriving DecidableEq, Repr

def OutOfCalendar.message : OutOfCalendar → String
  | _ => "date value out of range"

namespace Moment

def secondsPerDay : Int := 86400

/-- The seconds since the beginning of the day in UTC on which the moment is dated; negative on the day before. -/
def utcSeconds (m : Moment) : Int := (m.hour * 3600 + m.minute * 60 + m.second : Nat) - m.offset.getD 0

/-- The date in UTC and the seconds since its beginning. -/
def utc? (m : Moment) : Option (Date × Nat) :=
  let s := m.utcSeconds
  if s < 0 then m.date.previous?.map (·, (s + secondsPerDay).toNat)
  else if s < secondsPerDay then some (m.date, s.toNat)
  else m.date.next?.map (·, (s - secondsPerDay).toNat)

/-- One more than the largest number in `bits` bits with a sign. -/
def bound (bits : Nat) : Nat := Nat.pow 2 (bits - 1)

/-- What is wrong with an offset in seconds. -/
def offsetFault? (seconds : Int) : Option InvalidMoment :=
  let days := seconds / secondsPerDay
  if days < -bound 32 ∨ bound 32 ≤ days then some .duration
  else if dayLimit < days.natAbs then some (.days days)
  else if seconds ≤ -secondsPerDay ∨ secondsPerDay ≤ seconds then some (.offset seconds)
  else none

/-- What is wrong with the size of a part. -/
def sizeFault? (n : Int) : Option InvalidMoment :=
  if n < -bound 64 ∨ bound 64 ≤ n then some .partTooWide
  else if bound 32 ≤ n then some .partTooLarge
  else if n < -bound 32 then some .partTooSmall
  else none

/-- What is wrong with the number of the parts and their sizes. An eighth part stands where the offset belongs, so it is
    met after the sizes; any more are refused at once. -/
def partsFault? (parts : List (Option Int)) : Option InvalidMoment :=
  if 8 < parts.length then some .parts
  else ((parts.take 7).findSome? fun part => part.elim (some .parts) sizeFault?).or
    (if parts.length < 3 ∨ 7 < parts.length then some .parts else none)

/-- The moment of year, month, day, hour, minute, second and microsecond, where those after the day may be absent and
    are then zero. A part that is no integer is `none`. -/
def ofParts (parts : List (Option Int)) (offset : Option Int) : Except InvalidMoment Moment :=
  match (offset.bind offsetFault?).or (partsFault? parts) with
  | some f => .error f
  | none =>
    let part (i : Nat) : Int := (parts.getD i none).getD 0
    let size := Date.daysIn (part 0).toNat (part 1).toNat
    if part 0 < 1 ∨ 9999 < part 0 then .error (.year (part 0))
    else if part 1 < 1 ∨ 12 < part 1 then .error .month
    else if part 2 < 1 ∨ size < part 2 then .error .day
    else if part 3 < 0 ∨ 23 < part 3 then .error .hour
    else if part 4 < 0 ∨ 59 < part 4 then .error .minute
    else if part 5 < 0 ∨ 59 < part 5 then .error .second
    else if part 6 < 0 ∨ 999999 < part 6 then .error .microsecond
    else .ok
      { date := ⟨(part 0).toNat, (part 1).toNat, (part 2).toNat⟩
        hour := (part 3).toNat
        minute := (part 4).toNat
        second := (part 5).toNat
        microsecond := (part 6).toNat
        offset }

/-- A number with zeros in front up to a width. -/
def padded (width n : Nat) : List Char :=
  let ds := Nat.toDigits 10 n
  List.replicate (width - ds.length) '0' ++ ds

/-- The stamp of a date, the seconds since its beginning, and a fraction in microseconds, which is cut to
    milliseconds. -/
def stampText (d : Date) (seconds microsecond : Nat) : List Char :=
  padded 4 d.year ++ '-' :: padded 2 d.month ++ '-' :: padded 2 d.day ++ 'T' :: padded 2 (seconds / 3600) ++
    ':' :: padded 2 (seconds / 60 % 60) ++ ':' :: padded 2 (seconds % 60) ++ '.' :: padded 3 (microsecond / 1000) ++
    ['Z']

def stamp (m : Moment) : Except OutOfCalendar String :=
  match m.utc? with
  | some (d, seconds) => .ok (String.ofList (stampText d seconds m.microsecond))
  | none => .error ⟨⟩

end Moment
end Appraisal.Citation
