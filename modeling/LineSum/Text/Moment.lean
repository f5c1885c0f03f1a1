/-!
# Moments

Moments as days and times, how they are written and read in configurations, and how the banner of a
report shows them.
-/

namespace LineSum

/-! ## Days and times of day

A moment is a number of milliseconds from the beginning of 1970 in universal time. It is turned into
a day of the Gregorian calendar with a time of day, and back, and written in two ways.
-/

/-- A day of the calendar. -/
structure CivilDay where
  year : Int
  month : Nat
  day : Nat
  deriving DecidableEq, Repr

namespace CivilDay

/-- The day with the given number, counted from the first day of 1970. The count is moved to the
first of March of the year zero, from where the calendar repeats every 146097 days. -/
def ofNumber (number : Int) : CivilDay :=
  let shifted := number + 719468
  let era := shifted.fdiv 146097
  let dayOfEra := (shifted.fmod 146097).toNat
  let yearOfEra := (dayOfEra - dayOfEra / 1460 + dayOfEra / 36524 - dayOfEra / 146096) / 365
  let dayOfYear := dayOfEra - (365 * yearOfEra + yearOfEra / 4 - yearOfEra / 100)
  let monthFromMarch := (5 * dayOfYear + 2) / 153
  let day := dayOfYear - (153 * monthFromMarch + 2) / 5 + 1
  let month := if monthFromMarch < 10 then monthFromMarch + 3 else monthFromMarch - 9
  let year := era * 400 + yearOfEra + (if month ≤ 2 then 1 else 0)
  ⟨year, month, day⟩

/-- The number of the first day of a month, the months being counted from January of the year. -/
def firstOfMonth (year : Int) (month : Nat) : Int :=
  let year := year + (month / 12 : Nat)
  let month := month % 12
  let fromMarch := (month + 10) % 12
  let year := if month < 2 then year - 1 else year
  let yearOfEra := year.fmod 400
  let dayOfEra := yearOfEra * 365 + yearOfEra / 4 - yearOfEra / 100 + (153 * fromMarch + 2) / 5
  year.fdiv 400 * 146097 + dayOfEra - 719468

end CivilDay

/-- A day and the milliseconds since its beginning. -/
structure DayTime where
  day : CivilDay
  /-- The number of the day, counted from the first day of 1970. -/
  number : Int
  millisecond : Nat
  deriving DecidableEq, Repr

namespace DayTime

/-- The milliseconds of a day. -/
def dayLength : Int := 86400000

/-- The day and the time of a moment. -/
def ofMoment (milliseconds : Int) : DayTime :=
  let number := milliseconds.fdiv dayLength
  ⟨.ofNumber number, number, (milliseconds.fmod dayLength).toNat⟩

/-- The hour of the day. -/
def hour (t : DayTime) : Nat := t.millisecond / 3600000

/-- The minute of the hour. -/
def minute (t : DayTime) : Nat := t.millisecond / 60000 % 60

/-- The second of the minute. -/
def second (t : DayTime) : Nat := t.millisecond / 1000 % 60

end DayTime

/-- A number with zeros before it, so that it has at least so many digits. -/
def paddedNumber (width n : Nat) : String :=
  let digits := toString n
  String.ofList (List.replicate (width - digits.length) '0') ++ digits

/-- A number in at least two digits. -/
def twoDigits (n : Nat) : String := paddedNumber 2 n

/-- The greatest distance of a moment from the beginning of 1970. -/
def greatestMoment : Nat := 8640000000000000

/-- A moment as the day and the time with a letter between them; the year has six digits and a sign
if it does not fit into four. -/
def isoText (milliseconds : Int) : String :=
  let t := DayTime.ofMoment milliseconds
  let year :=
    if 0 ≤ t.day.year && t.day.year ≤ 9999 then paddedNumber 4 t.day.year.toNat
    else (if t.day.year < 0 then "-" else "+") ++ paddedNumber 6 t.day.year.natAbs
  s!"{year}-{twoDigits t.day.month}-{twoDigits t.day.day}" ++
    s!"T{twoDigits t.hour}:{twoDigits t.minute}:{twoDigits t.second}" ++
    s!".{paddedNumber 3 (t.millisecond % 1000)}Z"

/-- The names of the days of the week; the first day of 1970 was a Thursday. -/
def weekdayNames : List String := ["Thu", "Fri", "Sat", "Sun", "Mon", "Tue", "Wed"]

/-- The names of the months. -/
def monthNames : List String :=
  ["Jan", "Feb", "Mar", "Apr", "May", "Jun", "Jul", "Aug", "Sep", "Oct", "Nov", "Dec"]

/-- A moment with the names of the day and of the month, and the time zone in words. -/
def wordyText (milliseconds : Int) : String :=
  let t := DayTime.ofMoment milliseconds
  let weekday := weekdayNames.getD (t.number.fmod 7).toNat ""
  let month := monthNames.getD (t.day.month - 1) ""
  let year := (if t.day.year < 0 then "-" else "") ++
    paddedNumber (if t.day.year < 0 then 6 else 4) t.day.year.natAbs
  s!"{weekday} {month} {twoDigits t.day.day} {year} " ++
    s!"{twoDigits t.hour}:{twoDigits t.minute}:{twoDigits t.second} " ++
    "GMT+0000 (Coordinated Universal Time)"

/-! ## Dates

The banner shows the date and the time on a twelve hour clock, as the clock of a run gives them.
-/

/-- A moment as `MM/DD/YYYY, hh:mm AM`. Midnight and noon are shown as twelve, years before the
first one are counted backwards from one, and what is too far away is no date. -/
def momentText (milliseconds : Int) : String :=
  if greatestMoment < milliseconds.natAbs then "Invalid Date"
  else
    let t := DayTime.ofMoment milliseconds
    let shownHour := if t.hour % 12 = 0 then 12 else t.hour % 12
    let year := if t.day.year ≤ 0 then 1 - t.day.year else t.day.year
    s!"{twoDigits t.day.month}/{twoDigits t.day.day}/{year}, " ++
      s!"{twoDigits shownHour}:{twoDigits t.minute} " ++ (if t.hour < 12 then "AM" else "PM")

/-- The moments at which a clock is going to be read. The last one is read again and again. -/
structure Clock where
  readings : List Int
  deriving DecidableEq, Repr

namespace Clock

/-- Reads the clock. -/
def read (clock : Clock) : Int × Clock :=
  match clock.readings with
  | [] => (0, clock)
  | [moment] => (moment, clock)
  | moment :: rest => (moment, ⟨rest⟩)

end Clock

end LineSum
