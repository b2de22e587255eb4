namespace Listing.Calendar

/-!
# Dates and instants

The proleptic Gregorian calendar, and the count of days and of microseconds from the start of the
year 2000, by which dates and instants are sent to a database.

* `Date` — a day of the calendar, with a month and a day that exist;
* `Date.daysSince2000` — its distance from 2000-01-01;
* `Clock`, `DateTime` — a time of day and a date with a time;
* `DateTime.microsSince2000` — its distance from the first instant of the year 2000.
-/

/-- Whether a year has 366 days. -/
def isLeapYear (year : Int) : Bool := year % 4 == 0 && (year % 100 != 0 || year % 400 == 0)

/-- The lengths of the months of a year. -/
def monthLengths (year : Int) : List Nat :=
  [31, if isLeapYear year then 29 else 28, 31, 30, 31, 30, 31, 31, 30, 31, 30, 31]

/-- The number of days of a month, counted from 1; a month that does not exist has none. -/
def monthLength (year : Int) (month : Nat) : Nat :=
  if month = 0 then 0 else (monthLengths year)[month - 1]?.getD 0

/-- A day of the calendar. -/
structure Date where
  year : Int
  month : Nat
  day : Nat
  exists_day : 1 ≤ day ∧ day ≤ monthLength year month

namespace Date

/-- The earliest year that a request can name. -/
def firstYear : Int := -262143

/-- The latest year that a request can name. -/
def lastYear : Int := 262142

/-- The date with these parts, if it exists and its year can be named. -/
def ofParts? (year : Int) (month day : Nat) : Option Date :=
  if h : 1 ≤ day ∧ day ≤ monthLength year month then
    if firstYear ≤ year ∧ year ≤ lastYear then some ⟨year, month, day, h⟩ else none
  else none

/-- The number of days before a year, counted from the first day of the year 1. -/
def daysBeforeYear (year : Int) : Int :=
  let past := year - 1
  365 * past + past / 4 - past / 100 + past / 400

/-- The number of days before a month in its year. -/
def daysBeforeMonth (year : Int) (month : Nat) : Nat :=
  ((monthLengths year).take (month - 1)).foldl (· + ·) 0

/-- The number of days from 2000-01-01, negative before it. -/
def daysSince2000 (date : Date) : Int :=
  daysBeforeYear date.year - daysBeforeYear 2000 + daysBeforeMonth date.year date.month +
    (date.day - 1 : Int)

end Date

/-- A time of day; a leap second is second 59 with a fraction of a second or more. -/
structure Clock where
  hour : Nat
  minute : Nat
  second : Nat
  nanosecond : Nat

/-- A date with a time of day. -/
structure DateTime where
  date : Date
  clock : Clock

namespace DateTime

/-- The number of nanoseconds from the first instant of the year 2000. -/
def nanosSince2000 (t : DateTime) : Int :=
  (t.date.daysSince2000 * 86400 +
    (t.clock.hour * 3600 + t.clock.minute * 60 + t.clock.second : Nat)) * 1000000000 +
    t.clock.nanosecond

/-- The number of microseconds from the first instant of the year 2000, what is left of one
dropped. -/
def microsSince2000 (t : DateTime) : Int := t.nanosSince2000.tdiv 1000

end DateTime

/-- The distance of the first day that can be named from 2000-01-01. -/
def firstDay : Int := Date.daysBeforeYear Date.firstYear - Date.daysBeforeYear 2000

/-- The distance of the day after the last one that can be named from 2000-01-01. -/
def endDay : Int := Date.daysBeforeYear (Date.lastYear + 1) - Date.daysBeforeYear 2000

example : (Date.ofParts? 2024 2 29).map Date.daysSince2000 = some 8825 ∧
    (Date.ofParts? 1999 12 31).map Date.daysSince2000 = some (-1) ∧
    (Date.ofParts? 2023 2 29).map Date.daysSince2000 = none := by decide +kernel

end Listing.Calendar
