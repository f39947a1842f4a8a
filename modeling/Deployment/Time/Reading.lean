import Deployment.Json.Form
import Deployment.Text.Blank
import Deployment.Time.Timestamp

/-! # Reading points in time

A point in time is read as a date, a separator, a time of day and the distance from universal
time. Blanks may stand between the parts, and parts may have fewer digits than they are written
with.

* **`Timestamp.ofText`** — the point in time of a text.
* **`Timestamp.Fault`** — why a text is none.
* **`Timestamp.form`** — points in time as JSON strings. -/

namespace Deployment.Timestamp

/-- Why a text is no point in time. -/
inductive Fault where
  | outOfRange
  | impossible
  | invalid
  | tooShort
  | tooLong
  deriving DecidableEq, Repr

/-- The text of a refusal. -/
def Fault.message : Fault → String
  | .outOfRange => "input is out of range"
  | .impossible => "no possible date and time matching input"
  | .invalid => "input contains invalid characters"
  | .tooShort => "premature end of input"
  | .tooLong => "trailing input"

/-- A step of reading: what it found and what is left. -/
abbrev Scan (α : Type) := List Char → Except Fault (α × List Char)

/-- The largest number that is read. -/
def maxNumber : Nat := Nat.pow 2 63 - 1

/-- The digits at the front, at most `max` of them, behind digits with a known number. -/
def moreDigits : Nat → Nat → Scan Nat
  | 0, n, s => .ok (n, s)
  | _ + 1, n, [] => .ok (n, [])
  | max + 1, n, c :: s =>
    if c.isDigit then
      let n' := n * 10 + (c.toNat - 48)
      if n' ≤ maxNumber then moreDigits max n' s else .error .outOfRange
    else .ok (n, c :: s)

/-- A number of at least one digit and at most `max`. -/
def number (max : Nat) : Scan Nat
  | [] => .error .tooShort
  | c :: s => if c.isDigit then moreDigits max 0 (c :: s) else .error .invalid

/-- A number of at most two digits between two bounds; blanks may stand before it. -/
def twoDigits (low high : Nat) : Scan Nat := fun s => do
  let (n, s) ← number 2 (Text.dropBlanks s)
  if low ≤ n && n ≤ high then return (n, s) else throw .outOfRange

/-- A year: up to four digits, or as many as there are behind a sign. -/
def year : Scan Int := fun s => do
  let (n, s) ← match Text.dropBlanks s with
    | '-' :: s => do
      let (n, s) ← number s.length s
      pure (-(n : Int), s)
    | '+' :: s => do
      let (n, s) ← number s.length s
      pure ((n : Int), s)
    | s => do
      let (n, s) ← number 4 s
      pure ((n : Int), s)
  if -(Nat.pow 2 31) ≤ n && n < Nat.pow 2 31 then return (n, s) else throw .outOfRange

/-- A separator; blanks may stand before it. -/
def separator (c : Char) : Scan Unit := fun s =>
  match Text.dropBlanks s with
  | [] => .error .tooShort
  | c' :: s => if c' = c then .ok ((), s) else .error .invalid

/-- A date, which need not exist. -/
def date : Scan Calendar.Date := fun s => do
  let (year, s) ← year s
  let ((), s) ← separator '-' s
  let (month, s) ← twoDigits 1 12 s
  let ((), s) ← separator '-' s
  let (day, s) ← twoDigits 1 31 s
  return (⟨year, month, day⟩, s)

/-- What stands between the date and the time of day. -/
def middle : Scan Unit
  | [] => .error .tooShort
  | c :: s => if c = 't' || c = 'T' || c = ' ' then .ok ((), s) else .error .invalid

/-- The fraction of a second in nanoseconds; digits beyond the ninth are passed over. -/
def fraction : Scan Nat
  | '.' :: s => do
    let (n, rest) ← number 9 s
    return (n * Nat.pow 10 (9 - (s.length - rest.length)), rest.dropWhile Char.isDigit)
  | s => .ok (0, s)

/-- The time of day: its second, where 60 stands for a leap second, and its fraction. -/
def time : Scan (Nat × Nat) := fun s => do
  let (hour, s) ← twoDigits 0 23 s
  let ((), s) ← separator ':' s
  let (minute, s) ← twoDigits 0 59 s
  let ((), s) ← separator ':' s
  let (second, s) ← twoDigits 0 60 s
  let (nano, s) ← fraction s
  let clock := hour * 3600 + minute * 60
  if second = 60 then return ((clock + 59, nano + nanosPerSecond), s)
  else return ((clock + second, nano), s)

/-- Two digits, the first of them at most `high`. -/
def pair (high : Char) : Scan Nat
  | [] => .error .tooShort
  | a :: s =>
    match s with
    | [] => if a.utf8Size = 1 then .error .tooShort else .error .invalid
    | b :: s =>
      if a.isDigit && b.isDigit then
        if a ≤ high then .ok ((a.toNat - 48) * 10 + (b.toNat - 48), s) else .error .outOfRange
      else .error .invalid

/-- The distance from universal time, in seconds to the east. -/
def offset : Scan Int
  | 'Z' :: s => .ok (0, s)
  | 'z' :: s => .ok (0, s)
  | [] => .error .tooShort
  | c :: s =>
    if c = '+' || c = '-' || c = '\u2212' then do
      let (hours, s) ← pair '9' s
      let (minutes, s) ← pair '5' (s.dropWhile fun c => c = ':' || Text.isBlank c)
      let seconds : Int := hours * 3600 + minutes * 60
      return (if c = '+' then seconds else -seconds, s)
    else .error .invalid

/-- The distance from universal time, which may also be named. -/
def zone : Scan Int := fun s =>
  match s with
  | u :: t :: c :: rest =>
    if [u, t, c].map Char.toUpper = ['U', 'T', 'C'] then .ok (0, rest) else offset s
  | _ => offset s

/-- The years that points in time may lie in. -/
def yearInRange (year : Int) : Bool := -262143 ≤ year && year ≤ 262142

/-- A point in time from its parts. -/
def ofParts (date : Calendar.Date) (second nano : Nat) (offset : Int) : Except Fault Timestamp :=
  if !(date.isValid && yearInRange date.year) then .error .outOfRange
  else if secondsPerDay ≤ offset.natAbs then .error .outOfRange
  else
    let moment := Calendar.dayNumber date * secondsPerDay + second - offset
    let day := moment / secondsPerDay
    if yearInRange (Calendar.ofDayNumber day).year then
      .ok ⟨day, (moment % secondsPerDay).toNat, nano⟩
    else .error .impossible

/-- The point in time of some characters. -/
def ofChars (s : List Char) : Except Fault Timestamp := do
  let (date, s) ← date s
  let ((), s) ← middle s
  let ((second, nano), s) ← time s
  let (offset, s) ← zone (Text.dropBlanks s)
  if !(Text.dropBlanks s).isEmpty then throw .tooLong
  ofParts date second nano offset

/-- The point in time of a text. -/
def ofText (s : String) : Except Fault Timestamp := ofChars s.toList

/-- A point in time as a JSON string. -/
def form : Json.Form Timestamp :=
  .judged "an RFC 3339 formatted date and time string"
    (fun s => (ofText s).mapError fun f => .other f.message) text

end Deployment.Timestamp
