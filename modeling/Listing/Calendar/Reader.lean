import Listing.Calendar.Date
import Listing.Number.Reader
import Listing.Text.Blank

namespace Listing.Calendar

/-!
# Reading dates and instants

The forms in which a request names a date, a date with a time, and an instant with an offset from
UTC.  Numbers need no padding, and blanks may stand before a number, before a separator and at the
end.

* `readDate` — `2024-2-9`;
* `readDateTime` — `2024-02-09T10:20:30.5`;
* `readInstant` — `2024-02-09 10:20:30 +02:00`, the offset also being `Z`, `UTC` or `+0200`.
-/

open Text (isBlank trimStart)

/-- The value of digits, unless it is beyond 64-bit integers. -/
def bounded (digits : List Char) : Option Nat :=
  let n := Number.digitsToNat digits
  if n < 2 ^ 63 then some n else none

/-- A number of one to `width` digits. -/
def readNumber (width : Nat) (text : List Char) : Option (Nat × List Char) :=
  let digits := (text.take width).takeWhile Char.isDigit
  if digits.isEmpty then none
  else (bounded digits).map fun n => (n, text.drop digits.length)

/-- A number of at least one digit. -/
def readLongNumber (text : List Char) : Option (Nat × List Char) := readNumber text.length text

/-- What follows the character `c` at the start of a text. -/
def expect (c : Char) : List Char → Option (List Char)
  | d :: rest => if d = c then some rest else none
  | [] => none

/-- A year: up to four digits, or any number of them after a sign. -/
def readYear (text : List Char) : Option (Int × List Char) :=
  match trimStart text with
  | '-' :: rest => (readLongNumber rest).map fun (n, rest) => (-(n : Int), rest)
  | '+' :: rest => (readLongNumber rest).map fun (n, rest) => ((n : Int), rest)
  | rest => (readNumber 4 rest).map fun (n, rest) => ((n : Int), rest)

/-- A part of at most two digits between two bounds, after blanks. -/
def readPart (low high : Nat) (text : List Char) : Option (Nat × List Char) := do
  let (n, rest) ← readNumber 2 (trimStart text)
  if low ≤ n ∧ n ≤ high then some (n, rest) else none

/-- Year, month and day with dashes between them. -/
def readYearMonthDay (text : List Char) : Option (Date × List Char) := do
  let (year, rest) ← readYear text
  let rest ← expect '-' (trimStart rest)
  let (month, rest) ← readPart 1 12 rest
  let rest ← expect '-' (trimStart rest)
  let (day, rest) ← readPart 1 31 rest
  let date ← Date.ofParts? year month day
  return (date, rest)

/-- The nanoseconds of a fraction: nine digits count, those after them are skipped. -/
def readFraction : List Char → Option (Nat × List Char)
  | '.' :: rest => do
    let (n, after) ← readNumber 9 rest
    return (n * 10 ^ (9 - (rest.length - after.length)), after.dropWhile Char.isDigit)
  | rest => some (0, rest)

/-- Hour, minute and second with colons between them; second 60 is a leap second. -/
def readClock (text : List Char) : Option (Clock × List Char) := do
  let (hour, rest) ← readPart 0 23 text
  let rest ← expect ':' (trimStart rest)
  let (minute, rest) ← readPart 0 59 rest
  let rest ← expect ':' (trimStart rest)
  let (second, rest) ← readPart 0 60 rest
  let (nanos, rest) ← readFraction rest
  let clock :=
    -- the extra second goes into the fraction, so the minute stays what it was
    if second = 60 then Clock.mk hour minute 59 (nanos + 1000000000)
    else Clock.mk hour minute second nanos
  return (clock, trimStart rest)

/-- A text that is a date. -/
def readDate (text : List Char) : Option Date := do
  let (date, rest) ← readYearMonthDay text
  if (trimStart rest).isEmpty then some date else none

/-- A text that is a date, a `T` and a time. -/
def readDateTime (text : List Char) : Option DateTime := do
  let (date, rest) ← readYearMonthDay text
  let rest ← expect 'T' (trimStart rest)
  let (clock, rest) ← readClock rest
  if rest.isEmpty then some ⟨date, clock⟩ else none

/-- Two digits, the first at most `top`. -/
def readTwoDigits (top : Char) : List Char → Option (Nat × List Char)
  | a :: b :: rest =>
    if a.isDigit && b.isDigit && a ≤ top then
      some ((a.toNat - '0'.toNat) * 10 + (b.toNat - '0'.toNat), rest)
    else none
  | _ => none

/-- Hours and minutes of an offset, in minutes, with colons and blanks between them. -/
def readHoursMinutes (text : List Char) : Option (Nat × List Char) := do
  let (hours, rest) ← readTwoDigits '9' text
  -- any run of colons and blanks separates, also an empty one
  let (minutes, rest) ← readTwoDigits '5' (rest.dropWhile fun c => c == ':' || isBlank c)
  return (hours * 60 + minutes, rest)

/-- An offset from UTC in minutes: `Z`, `UTC`, or a sign with hours and minutes. -/
def readOffset : List Char → Option (Int × List Char)
  | '+' :: rest => (readHoursMinutes rest).map fun (n, rest) => ((n : Int), rest)
  | '-' :: rest => (readHoursMinutes rest).map fun (n, rest) => (-(n : Int), rest)
  | '−' :: rest => (readHoursMinutes rest).map fun (n, rest) => (-(n : Int), rest)
  | 'z' :: rest => some (0, rest)
  | 'Z' :: rest => some (0, rest)
  | text =>
    if (text.take 3).map Char.toUpper = ['U', 'T', 'C'] then some (0, text.drop 3) else none

/--
A text that is an instant, as nanoseconds since the first instant of the year 2000.  The offset is
below a day, and the day in UTC is one that can be named.
-/
def readInstant (text : List Char) : Option Int := do
  let (date, rest) ← readYearMonthDay text
  let rest ← match rest with
    | c :: rest => if c = 't' ∨ c = 'T' ∨ c = ' ' then some rest else none
    | [] => none
  let (clock, rest) ← readClock rest
  let (offset, rest) ← readOffset rest
  let moment := DateTime.mk date clock
  let nanos := moment.nanosSince2000 - offset * 60000000000
  -- the day is that of the whole second, so a leap second stays in its own minute
  let seconds := (nanos - clock.nanosecond) / 1000000000
  let day := seconds / 86400
  if (trimStart rest).isEmpty && offset.natAbs < 1440 && firstDay ≤ day && day < endDay then
    some nanos
  else none

end Listing.Calendar
