import Deployment.Time.Calendar

/-! # Points in time

A point in time is a day, a second of the day and a fraction of the second in nanoseconds, all in
universal time. A leap second is written as the fraction going on past one whole second.

* **`Timestamp`** — a point in time.
* **`Timestamp.text`** — its text, with as few digits of the fraction as keep its value, in
  groups of three. -/

namespace Deployment

/-- A point in time. -/
structure Timestamp where
  /-- Days since the first of January 1970. -/
  day : Int
  /-- The second of the day. -/
  second : Nat
  /-- The fraction in nanoseconds; one billion and more in a leap second. -/
  nano : Nat
  deriving DecidableEq, Repr

namespace Timestamp

/-- The one point is not later than the other. -/
def notAfter (a b : Timestamp) : Bool :=
  a.day < b.day || a.day = b.day &&
    (a.second < b.second || a.second = b.second && a.nano ≤ b.nano)

/-- The number of seconds in a day. -/
def secondsPerDay : Nat := 86400

/-- The number of nanoseconds in a second. -/
def nanosPerSecond : Nat := 1000000000

/-- The point that lies so many nanoseconds after the first of January 1970. -/
def ofNanoseconds (n : Int) : Timestamp where
  day := n / nanosPerSecond / secondsPerDay
  second := (n / nanosPerSecond % secondsPerDay).toNat
  nano := (n % nanosPerSecond).toNat

/-- The last `k` decimal digits of a number. -/
def padded : Nat → Nat → List Char
  | 0, _ => []
  | k + 1, n => padded k (n / 10) ++ [Char.ofNat (48 + n % 10)]

/-- A year: four digits, with a sign and more digits where they are needed. -/
def yearText (year : Int) : List Char :=
  if 0 ≤ year && year ≤ 9999 then padded 4 year.toNat
  else
    let digits := Nat.toDigits 10 year.natAbs
    (if year < 0 then '-' else '+') :: (List.replicate (4 - digits.length) '0' ++ digits)

/-- The fraction of a second, in groups of three digits; nothing for a whole second. -/
def fractionText (nano : Nat) : List Char :=
  if nano = 0 then []
  else if nano % 1000000 = 0 then '.' :: padded 3 (nano / 1000000)
  else if nano % 1000 = 0 then '.' :: padded 6 (nano / 1000)
  else '.' :: padded 9 nano

/-- The characters of a point in time. -/
def chars (t : Timestamp) : List Char :=
  let date := Calendar.ofDayNumber t.day
  let leap := nanosPerSecond ≤ t.nano
  yearText date.year ++ '-' :: padded 2 date.month ++ '-' :: padded 2 date.day ++
    'T' :: padded 2 (t.second / 3600) ++ ':' :: padded 2 (t.second / 60 % 60) ++
    ':' :: padded 2 (t.second % 60 + if leap then 1 else 0) ++
    fractionText (if leap then t.nano - nanosPerSecond else t.nano) ++ ['Z']

/-- The text of a point in time. -/
def text (t : Timestamp) : String := String.ofList t.chars

end Timestamp

end Deployment
