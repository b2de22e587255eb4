import Listing.Calendar.Reader
import Mathlib.Algebra.Order.BigOperators.Group.List
import Mathlib.Algebra.Order.Ring.Nat
import Mathlib.Data.List.TakeWhile
import Mathlib.Tactic.Ring

namespace Listing.Calendar

/-!
# The range of dates and instants

The years that a request can name are few enough for every date to be an integer of 32 bits, as
days, and for every instant to be one of 64 bits, as microseconds.

* `Date.daysSince2000_bounds` — the days of a date whose year can be named;
* `Clock.InRange`, `inRange_of_readClock` — the parts of a time of day that is read;
* `DateTime.nanosSince2000_bounds` — the nanoseconds of a date with a time;
* `days_of_readDate`, `micros_of_readDateTime`, `micros_of_readInstant` — what is read is in range.
-/

variable {text rest : List Char}

/-! ### Dates -/

namespace Date

/-- No month has more than 31 days. -/
theorem monthLength_le (year : Int) (month : Nat) : monthLength year month ≤ 31 := by
  unfold monthLength
  split
  · exact Nat.zero_le _
  · have hall : ∀ n ∈ monthLengths year, n ≤ 31 := by
      unfold monthLengths
      split <;> decide
    cases hget : (monthLengths year)[month - 1]? with
    | none => exact Nat.zero_le _
    | some n => exact hall n (List.mem_of_getElem? hget)

/-- No month begins after the end of a leap year. -/
theorem daysBeforeMonth_le (year : Int) (month : Nat) : daysBeforeMonth year month ≤ 366 := by
  have hsum (months : List Nat) : months.foldl (· + ·) 0 = months.sum := List.sum_eq_foldl.symm
  rw [daysBeforeMonth, hsum]
  calc ((monthLengths year).take (month - 1)).sum ≤ (monthLengths year).sum :=
        (List.take_sublist _ _).sum_le_sum fun _ _ => Nat.zero_le _
    _ ≤ 366 := by
        unfold monthLengths
        split <;> decide

/-- Days of years that can be named are within two hundred and sixty-five thousand years of 2000. -/
theorem daysSince2000_bounds (date : Date)
    (hyear : firstYear ≤ date.year ∧ date.year ≤ lastYear) :
    -96500000 ≤ date.daysSince2000 ∧ date.daysSince2000 ≤ 95100000 := by
  obtain ⟨hfirst, hlast⟩ := hyear
  have hmonth := daysBeforeMonth_le date.year date.month
  have hday := date.exists_day
  have hlength := monthLength_le date.year date.month
  unfold firstYear at hfirst
  unfold lastYear at hlast
  unfold daysSince2000 daysBeforeYear
  simp only
  omega

end Date

/-! ### Times of day -/

/-- The parts of a time of day are in range; a leap second is in the fraction. -/
structure Clock.InRange (clock : Clock) : Prop where
  hour : clock.hour ≤ 23
  minute : clock.minute ≤ 59
  second : clock.second ≤ 59
  nanosecond : clock.nanosecond < 2000000000

/-- A part that is read is within its bound. -/
theorem readPart_le {low high n : Nat} (h : readPart low high text = some (n, rest)) :
    n ≤ high := by
  obtain ⟨⟨m, after⟩, -, h⟩ := Option.bind_eq_some_iff.mp h
  simp only at h
  split at h
  · rename_i hbounds
    cases h
    exact hbounds.2
  · cases h

/-- Digits spell less than one more in the place before them. -/
theorem ofDigitChars_lt (acc : Nat) (digits : List Char)
    (hdigits : ∀ c ∈ digits, c.isDigit = true) :
    Nat.ofDigitChars 10 digits acc < (acc + 1) * 10 ^ digits.length := by
  induction digits generalizing acc with
  | nil => simp
  | cons c rest ih =>
    obtain ⟨hc, hrest⟩ := List.forall_mem_cons.mp hdigits
    have hdigit := Char.isDigit_iff_toNat.mp hc
    have hnine : '9'.toNat = '0'.toNat + 9 := rfl
    have hnext : 10 * acc + (c.toNat - '0'.toNat) + 1 ≤ 10 * (acc + 1) := by omega
    rw [Nat.ofDigitChars_cons, List.length_cons]
    calc Nat.ofDigitChars 10 rest (10 * acc + (c.toNat - '0'.toNat))
        < (10 * acc + (c.toNat - '0'.toNat) + 1) * 10 ^ rest.length := ih _ hrest
      _ ≤ 10 * (acc + 1) * 10 ^ rest.length := Nat.mul_le_mul_right _ hnext
      _ = (acc + 1) * 10 ^ (rest.length + 1) := by ring

/-- A number of so many digits is below that power of ten. -/
theorem digitsToNat_lt (digits : List Char) (hdigits : ∀ c ∈ digits, c.isDigit = true) :
    Number.digitsToNat digits < 10 ^ digits.length := by
  simpa [Number.digitsToNat] using ofDigitChars_lt 0 digits hdigits

/-- A number of at most `width` digits is read from the digits that are gone afterwards. -/
theorem readNumber_lt {width n : Nat} (h : readNumber width text = some (n, rest)) :
    n < 10 ^ (text.length - rest.length) ∧ text.length - rest.length ≤ width := by
  unfold readNumber at h
  simp only at h
  split at h
  · cases h
  · obtain ⟨m, hbounded, hpair⟩ := Option.map_eq_some_iff.mp h
    have hvalue : m = Number.digitsToNat ((text.take width).takeWhile Char.isDigit) := by
      unfold bounded at hbounded
      simp only at hbounded
      split at hbounded
      · cases hbounded
        rfl
      · cases hbounded
    -- the digits that are read are among the first ones, as many as the width allows
    have hwidth : ((text.take width).takeWhile Char.isDigit).length ≤ min width text.length := by
      rw [← List.length_take]
      exact (List.takeWhile_sublist _).length_le
    have hlt := digitsToNat_lt ((text.take width).takeWhile Char.isDigit)
      fun c hc => List.mem_takeWhile_imp hc
    cases hpair
    rw [List.length_drop, Nat.sub_sub_self (by omega), hvalue]
    exact ⟨hlt, by omega⟩

/-- A fraction of a second is below a second, since it is brought to nine digits. -/
theorem readFraction_lt {n : Nat} (h : readFraction text = some (n, rest)) : n < 1000000000 := by
  unfold readFraction at h
  split at h
  · rename_i inner
    obtain ⟨⟨m, after⟩, hread, h⟩ := Option.bind_eq_some_iff.mp h
    obtain ⟨hlt, hcount⟩ := readNumber_lt hread
    cases h
    -- what is scaled up by the missing digits is below the power that they complete
    generalize inner.length - after.length = count at hlt hcount
    calc m * 10 ^ (9 - count) < 10 ^ count * 10 ^ (9 - count) :=
          Nat.mul_lt_mul_of_pos_right hlt (Nat.pow_pos (by decide))
      _ = 10 ^ 9 := by rw [← pow_add, Nat.add_sub_cancel' hcount]
  · cases h
    decide

/-- A time that is read is one of the day. -/
theorem inRange_of_readClock {clock : Clock} (h : readClock text = some (clock, rest)) :
    clock.InRange := by
  -- the parts of the clock, with the signs between them
  obtain ⟨⟨hour, _⟩, hhour, h⟩ := Option.bind_eq_some_iff.mp h
  obtain ⟨_, -, h⟩ := Option.bind_eq_some_iff.mp h
  obtain ⟨⟨minute, _⟩, hminute, h⟩ := Option.bind_eq_some_iff.mp h
  obtain ⟨_, -, h⟩ := Option.bind_eq_some_iff.mp h
  obtain ⟨⟨second, _⟩, hsecond, h⟩ := Option.bind_eq_some_iff.mp h
  obtain ⟨⟨nanos, _⟩, hnanos, h⟩ := Option.bind_eq_some_iff.mp h
  have hhour := readPart_le hhour
  have hminute := readPart_le hminute
  have hsecond := readPart_le hsecond
  have hnanos := readFraction_lt hnanos
  cases h
  -- a leap second is read as the second before it, with more nanoseconds
  split
  · exact ⟨hhour, hminute, Nat.le_refl 59, by simp only; omega⟩
  · exact ⟨hhour, hminute, by simp only; omega, by simp only; omega⟩

/-! ### Instants -/

/-- A date with a time is, in microseconds, well within 64 bits. -/
theorem DateTime.nanosSince2000_bounds {t : DateTime}
    (hyear : Date.firstYear ≤ t.date.year ∧ t.date.year ≤ Date.lastYear)
    (hclock : t.clock.InRange) :
    -8337600000000000000000 ≤ t.nanosSince2000 ∧ t.nanosSince2000 ≤ 8217000000000000000000 := by
  have hdays := Date.daysSince2000_bounds t.date hyear
  obtain ⟨hhour, hminute, hsecond, hnanosecond⟩ := hclock
  unfold nanosSince2000
  omega

/-- The year of a date that is read is one that a date can have. -/
theorem year_of_readYearMonthDay {date : Date} (h : readYearMonthDay text = some (date, rest)) :
    Date.firstYear ≤ date.year ∧ date.year ≤ Date.lastYear := by
  obtain ⟨⟨year, _⟩, -, h⟩ := Option.bind_eq_some_iff.mp h
  obtain ⟨_, -, h⟩ := Option.bind_eq_some_iff.mp h
  obtain ⟨⟨month, _⟩, -, h⟩ := Option.bind_eq_some_iff.mp h
  obtain ⟨_, -, h⟩ := Option.bind_eq_some_iff.mp h
  obtain ⟨⟨day, _⟩, -, h⟩ := Option.bind_eq_some_iff.mp h
  obtain ⟨found, hfound, h⟩ := Option.bind_eq_some_iff.mp h
  cases h
  unfold Date.ofParts? at hfound
  split at hfound
  · split at hfound
    · rename_i hyear
      cases hfound
      exact hyear
    · cases hfound
  · cases hfound

/-- A date that is read is, as days, an integer of 32 bits. -/
theorem days_of_readDate {date : Date} (h : readDate text = some date) :
    -2 ^ 31 ≤ date.daysSince2000 ∧ date.daysSince2000 < 2 ^ 31 := by
  obtain ⟨⟨found, _⟩, hread, h⟩ := Option.bind_eq_some_iff.mp h
  have hdays := Date.daysSince2000_bounds found (year_of_readYearMonthDay hread)
  simp only at h
  split at h
  · cases h
    omega
  · cases h

/-- What is left of a microsecond is dropped, whichever side of zero it is on. -/
theorem tdiv_bounds {nanos : Int}
    (h : -9000000000000000000000 ≤ nanos ∧ nanos ≤ 9000000000000000000000) :
    -2 ^ 63 ≤ nanos.tdiv 1000 ∧ nanos.tdiv 1000 < 2 ^ 63 := by
  have hsign : (1000 : Int).sign = 1 := rfl
  rw [Int.tdiv_eq_ediv, hsign]
  split <;> omega

/-- A date and a time that are read are within some range of nanoseconds. -/
theorem nanosSince2000_of_read {date : Date} {clock : Clock} {time more : List Char}
    (hdate : readYearMonthDay text = some (date, rest))
    (hclock : readClock time = some (clock, more)) :
    -8337600000000000000000 ≤ (DateTime.mk date clock).nanosSince2000 ∧
      (DateTime.mk date clock).nanosSince2000 ≤ 8217000000000000000000 :=
  DateTime.nanosSince2000_bounds (year_of_readYearMonthDay hdate) (inRange_of_readClock hclock)

/-- A date with a time that is read is, as microseconds, an integer of 64 bits. -/
theorem micros_of_readDateTime {t : DateTime} (h : readDateTime text = some t) :
    -2 ^ 63 ≤ t.microsSince2000 ∧ t.microsSince2000 < 2 ^ 63 := by
  obtain ⟨⟨date, _⟩, hdate, h⟩ := Option.bind_eq_some_iff.mp h
  obtain ⟨_, -, h⟩ := Option.bind_eq_some_iff.mp h
  obtain ⟨⟨clock, _⟩, hclock, h⟩ := Option.bind_eq_some_iff.mp h
  have hnanos := nanosSince2000_of_read hdate hclock
  simp only at h
  split at h
  · cases h
    exact tdiv_bounds (by omega)
  · cases h

/-- So is an instant, whose offset from UTC is below a day. -/
theorem micros_of_readInstant {nanos : Int} (h : readInstant text = some nanos) :
    -2 ^ 63 ≤ nanos.tdiv 1000 ∧ nanos.tdiv 1000 < 2 ^ 63 := by
  obtain ⟨⟨date, after⟩, hdate, h⟩ := Option.bind_eq_some_iff.mp h
  cases after with
  | nil => cases h
  | cons c after =>
    simp only at h
    split at h
    · obtain ⟨_, -, h⟩ := Option.bind_eq_some_iff.mp h
      obtain ⟨⟨clock, _⟩, hclock, h⟩ := Option.bind_eq_some_iff.mp h
      obtain ⟨⟨offset, _⟩, -, h⟩ := Option.bind_eq_some_iff.mp h
      -- the offset is checked against the range, so the date alone bounds what is left
      have hnanos := nanosSince2000_of_read hdate hclock
      simp only at h
      split at h
      · rename_i hchecks
        cases h
        simp only [Bool.and_eq_true, decide_eq_true_eq] at hchecks
        exact tdiv_bounds (by omega)
      · cases h
    · cases h

end Listing.Calendar
