/-!
# Moments

A moment of universal time, to the second, as a day and a second of that day, with its fields in
the Gregorian calendar extended to all years.
-/

namespace ExprTyping

/-- A moment of universal time. -/
structure Moment where
  /-- The days since 1 January 1970. -/
  day : Int
  /-- The second of the day. -/
  second : Int
  deriving DecidableEq, Repr

/-- A day of the calendar. -/
structure Date where
  /-- The year. -/
  year : Int
  /-- The month, from 1. -/
  month : Int
  /-- The day of the month, from 1. -/
  day : Int
  deriving DecidableEq, Repr

namespace Date

/-- The days from 1 January 1970 to a date. The count goes by years that start in March, so that
a leap day is the last day of its year. -/
def toDays (d : Date) : Int :=
  let year := if d.month ≤ 2 then d.year - 1 else d.year
  let month := (d.month + 9) % 12
  let era := year.fdiv 400
  let yearOfEra := year - era * 400
  let dayOfYear := (153 * month + 2) / 5 + d.day - 1
  let dayOfEra := yearOfEra * 365 + yearOfEra / 4 - yearOfEra / 100 + dayOfYear
  era * 146097 + dayOfEra - 719468

/-- The date that many days after 1 January 1970. -/
def ofDays (days : Int) : Date :=
  let shifted := days + 719468
  let era := shifted.fdiv 146097
  let dayOfEra := shifted - era * 146097
  let yearOfEra :=
    (dayOfEra - dayOfEra / 1460 + dayOfEra / 36524 - dayOfEra / 146096) / 365
  let dayOfYear := dayOfEra - (365 * yearOfEra + yearOfEra / 4 - yearOfEra / 100)
  let shiftedMonth := (5 * dayOfYear + 2) / 153
  let month := if shiftedMonth < 10 then shiftedMonth + 3 else shiftedMonth - 9
  let year := yearOfEra + era * 400
  ⟨if month ≤ 2 then year + 1 else year, month, dayOfYear - (153 * shiftedMonth + 2) / 5 + 1⟩

end Date

namespace Moment

/-- The moment with these fields. A field outside its range is carried over to the next one. -/
def ofFields (year month day hour minute second : Int) : Moment :=
  let first : Date := ⟨year + (month - 1).fdiv 12, (month - 1).fmod 12 + 1, 1⟩
  let seconds := hour * 3600 + minute * 60 + second
  ⟨first.toDays + (day - 1) + seconds.fdiv 86400, seconds.fmod 86400⟩

/-- The date of a moment. -/
def date (m : Moment) : Date := .ofDays m.day

/-- The hour of the day. -/
def hour (m : Moment) : Int := m.second / 3600

/-- The hour on a clock face. -/
def hour12 (m : Moment) : Int :=
  if m.hour % 12 = 0 then 12 else m.hour % 12

/-- The minute of the hour. -/
def minute (m : Moment) : Int := m.second / 60 % 60

/-- The second of the minute. -/
def secondOfMinute (m : Moment) : Int := m.second % 60

/-- The day of the week, Sunday being 0. -/
def weekday (m : Moment) : Int := (m.day + 4).fmod 7

/-- The day of the year, from 1. -/
def yearDay (m : Moment) : Int :=
  m.day - Date.toDays ⟨m.date.year, 1, 1⟩ + 1

/-- The number of the week, weeks starting on Monday and belonging to the year of their
Thursday. -/
def isoWeek (m : Moment) : Int :=
  let thursday : Moment := ⟨m.day - (m.weekday + 6) % 7 + 3, 0⟩
  (thursday.yearDay - 1) / 7 + 1

end Moment

end ExprTyping
