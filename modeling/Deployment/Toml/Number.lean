import Deployment.Time.Calendar
import Deployment.Toml.Lexeme
import Deployment.Toml.Value

/-! # Numbers and points in time of TOML

* **`Toml.number`** — an integer or a fraction.
* **`Toml.moment`** — a date, a time of day, or both. -/

namespace Deployment.Toml

/-- More digits of a number; an underscore may stand between two digits. -/
def digitsFrom (isDigit : Char → Bool) : Nat → Reader (List Char)
  | 0 => fail
  | fuel + 1 => do
    let ds ← takeSome isDigit
    if ← accept '_' then return ds ++ (← digitsFrom isDigit fuel) else return ds

/-- The digits of a number. -/
def digits (isDigit : Char → Bool) : Reader (List Char) := do
  digitsFrom isDigit ((← remaining) + 1)

/-- The number of some digits in a base. -/
def valueIn (base : Nat) (ds : List Char) : Nat := ds.foldl (fun n c => n * base + hexValue c) 0

/-- The digits of a decimal number; a zero in front stands alone. -/
def decimal : Reader (List Char) := do
  if ← accept '0' then pure ['0'] else digits Char.isDigit

/-- A sign, perhaps none: whether it is a minus. -/
def sign : Reader Bool := do
  if ← accept '-' then pure true
  else
    let _ ← accept '+'
    pure false

/-- An integer of 64 bits. -/
def integerOf (n : Int) : Reader Value :=
  if -(Nat.pow 2 63) ≤ n && n < Nat.pow 2 63 then pure (.integer n) else fail

/-- The smallest number that is closer to the next power of two than to any binary fraction of 64
bits. -/
def tooLarge : Nat := Nat.pow 2 1024 - Nat.pow 2 970

/-- `m * 10 ^ e` is too large for a binary fraction of 64 bits. -/
def overflows (m : Nat) (e : Int) : Bool :=
  let magnitude := (Nat.toDigits 10 m).length + e
  if m = 0 || magnitude < 300 then false
  else if 320 < magnitude then true
  else if 0 ≤ e then tooLarge ≤ m * Nat.pow 10 e.toNat
  else tooLarge * Nat.pow 10 e.natAbs ≤ m

/-- The exponent of a fraction, behind its letter. -/
def exponent : Reader Int := do
  let negative ← sign
  let n := valueIn 10 (← digits Char.isDigit)
  return if negative then -(n : Int) else n

/-- Take the letter of an exponent if it follows. -/
def acceptExponent : Reader Bool := do
  if ← accept 'e' then pure true else accept 'E'

/-- What follows the whole part of a number. -/
def fractionFrom (negative : Bool) (whole : List Char) : Reader Value := do
  let finish (ds : List Char) (e : Int) : Reader Value :=
    if !negative && overflows (valueIn 10 ds) e then fail else pure .fraction
  if ← accept '.' then
    let places ← digits Char.isDigit
    let e ← if ← acceptExponent then exponent else pure 0
    finish (whole ++ places) (e - places.length)
  else if ← acceptExponent then finish whole (← exponent)
  else
    let n : Int := valueIn 10 whole
    integerOf (if negative then -n else n)

/-- An integer or a fraction. -/
def number : Reader Value := do
  match ← get with
  | '0' :: 'x' :: rest =>
    set rest
    integerOf (valueIn 16 (← digits isHexDigit))
  | '0' :: 'o' :: rest =>
    set rest
    integerOf (valueIn 8 (← digits fun c => '0' ≤ c && c ≤ '7'))
  | '0' :: 'b' :: rest =>
    set rest
    integerOf (valueIn 2 (← digits fun c => c = '0' || c = '1'))
  | _ =>
    let negative ← sign
    match ← peek with
    | some 'i' => do
      word ['i', 'n', 'f']
      pure .fraction
    | some 'n' => do
      word ['n', 'a', 'n']
      pure .fraction
    | _ => fractionFrom negative (← decimal)

/-! ## Points in time -/

/-- A number of `n` digits between two bounds. -/
def bounded (n low high : Nat) : Reader Nat := do
  let v := valueIn 10 (← takeExactly Char.isDigit n)
  if low ≤ v && v ≤ high then pure v else fail

/-- A date. -/
def date : Reader Unit := do
  let year ← bounded 4 0 9999
  expect '-'
  let month ← bounded 2 1 12
  expect '-'
  let day ← bounded 2 1 31
  if day ≤ Calendar.daysInMonth year month then pure () else fail

/-- A time of day. -/
def clock : Reader Unit := do
  let _ ← bounded 2 0 23
  expect ':'
  let _ ← bounded 2 0 59
  expect ':'
  let _ ← bounded 2 0 60
  if ← accept '.' then discard (takeSome Char.isDigit)

/-- The distance from universal time. -/
def offset : Reader Unit := do
  match ← get with
  | c :: rest =>
    if c = 'Z' || c = 'z' then set rest
    else if c = '+' || c = '-' then
      set rest
      let _ ← bounded 2 0 23
      expect ':'
      let _ ← bounded 2 0 59
    else pure ()
  | [] => pure ()

/-- The time of day behind a date; if none follows, nothing is taken. -/
def clockBehind : Reader Unit := fun s =>
  match s with
  | c :: rest =>
    if c = 'T' || c = 't' || c = ' ' then
      match (do clock; offset : Reader Unit) rest with
      | some r => some r
      | none => some ((), s)
    else some ((), s)
  | [] => some ((), [])

/-- A date, a time of day, or both. -/
def moment : Reader Value := fun s =>
  match date s with
  | some ((), rest) => (do clockBehind; pure .moment : Reader Value) rest
  | none => (do clock; pure .moment : Reader Value) s

end Deployment.Toml
