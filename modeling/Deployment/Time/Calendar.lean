/-! # Days of the calendar

Days are counted from the first of January 1970, in the calendar of our time carried on in both
directions.

* **`Calendar.Date`** — a year, a month and a day.
* **`Calendar.dayNumber`** — the number of a date.
* **`Calendar.ofDayNumber`** — the date of a number. -/

namespace Deployment.Calendar

/-- A day of the calendar. -/
structure Date where
  year : Int
  month : Nat
  day : Nat
  deriving DecidableEq, Repr

/-- A year that has a day more: every fourth, without three of every four that end a century. -/
def isLeap (year : Int) : Bool := year % 4 = 0 && (year % 100 ≠ 0 || year % 400 = 0)

/-- The number of days of a month. -/
def daysInMonth (year : Int) (month : Nat) : Nat :=
  match month with
  | 2 => if isLeap year then 29 else 28
  | 4 | 6 | 9 | 11 => 30
  | _ => 31

/-- The date exists. -/
def Date.isValid (d : Date) : Bool :=
  1 ≤ d.month && d.month ≤ 12 && 1 ≤ d.day && d.day ≤ daysInMonth d.year d.month

/-- The days from the first of March of year 0 to that of `year`. -/
def daysBeforeMarch (year : Int) : Int :=
  365 * year + year / 4 - year / 100 + year / 400

/-- The days from the first of March to the first of the month that is `m` months later. -/
def daysBeforeMonth (m : Nat) : Nat := (153 * m + 2) / 5

/-- The number of the first of March of year 0. -/
def epochShift : Int := 719468

/-- The number of a date. Years are taken to begin in March, so that the day which only leap
years have is their last. -/
def dayNumber (d : Date) : Int :=
  let year := if d.month ≤ 2 then d.year - 1 else d.year
  let month := if d.month ≤ 2 then d.month + 9 else d.month - 3
  daysBeforeMarch year + daysBeforeMonth month + d.day - 1 - epochShift

/-- The date of a number. -/
def ofDayNumber (n : Int) : Date :=
  let z := n + epochShift
  let era := z / 146097
  let doe := (z - era * 146097).toNat
  let yoe := (doe - doe / 1460 + doe / 36524 - doe / 146096) / 365
  let doy := doe - (365 * yoe + yoe / 4 - yoe / 100)
  let m := (5 * doy + 2) / 153
  let month := if m < 10 then m + 3 else m - 9
  ⟨era * 400 + yoe + (if month ≤ 2 then 1 else 0), month, doy - daysBeforeMonth m + 1⟩

end Deployment.Calendar
