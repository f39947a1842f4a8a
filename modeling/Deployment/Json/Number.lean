import Deployment.Json.Cursor

/-! # Numbers in JSON texts

Whole numbers of up to 64 bits are kept as they are; all other numbers become doubles.

* **`Json.Number`** — a number as it was read.
* **`Reader.number`** — read a number.
* **`Reader.passNumber`** — pass over a number without keeping it. -/

namespace Deployment.Json

/-- A number of a JSON text. -/
inductive Number where
  | natural (n : Nat)
  | negative (n : Int)
  | float (f : Float)

/-- How a refusal names the number. -/
def Number.found : Number → Found
  | .natural n => .integer n
  | .negative n => .integer n
  | .float f => .float f

namespace Reader

/-- The byte is a digit. -/
def isDigit (b : UInt8) : Bool := 0x30 ≤ b && b ≤ 0x39

/-- The value of a digit. -/
def digit (b : UInt8) : Nat := b.toNat - 0x30

/-- The greatest whole number of 64 bits. -/
def maxWord : Nat := Nat.pow 2 64 - 1

/-- The greatest exponent that is still counted. -/
def maxExponent : Nat := Nat.pow 2 31 - 1

/-- The digits at the front of `rest`, behind those already taken in reverse, and the cursor
behind them. -/
def spanDigits : List UInt8 → List UInt8 → Position → List UInt8 × Cursor
  | [], taken, p => (taken.reverse, ⟨[], p⟩)
  | b :: rest, taken, p =>
    if isDigit b then spanDigits rest (b :: taken) (p.advance b)
    else (taken.reverse, ⟨b :: rest, p⟩)

/-- Take the digits that follow. -/
def digits : Reader (List UInt8) := fun c =>
  let (ds, c') := spanDigits c.rest [] c.position
  .ok ds c'

/-- Digits as part of a number of at most 64 bits: how many fit, and their value. -/
def takeFitting : List UInt8 → Nat → Nat → Nat × Nat
  | [], value, count => (value, count)
  | d :: ds, value, count =>
    let value' := value * 10 + digit d
    if maxWord < value' then (value, count) else takeFitting ds value' (count + 1)

/-- A power of ten as a double. -/
def tenTo (n : Nat) : Float := OfScientific.ofScientific 1 false n

/-- `f · 10 ^ exponent` in steps that stay inside the range of doubles; `none` if it is too
great. Four steps are enough for every 64-bit significand. -/
def scaled : Nat → Float → Int → Option Float
  | 0, f, _ => some f
  | steps + 1, f, exponent =>
    if exponent.natAbs ≤ 308 then
      if 0 ≤ exponent then
        let g := f * tenTo exponent.natAbs
        if g.isInf then none else some g
      else some (f / tenTo exponent.natAbs)
    else if f == 0.0 then some f
    else if 0 ≤ exponent then none
    else scaled steps (f / tenTo 308) (exponent + 308)

/-- A double from its sign, its significand and its decimal exponent. -/
def float (positive : Bool) (significand : Nat) (exponent : Int) : Reader Float :=
  match scaled 4 (UInt64.ofNat significand).toFloat exponent with
  | none => failHere .numberOutOfRange
  | some f => pure (if positive then f else -f)

/-- The exponent that follows an `e`. -/
def exponentPart (positive : Bool) (significand : Nat) (before : Int) : Reader Float := do
  skip
  let up ← match ← peek with
    | some 0x2B => do skip; pure true
    | some 0x2D => do skip; pure false
    | _ => pure true
  match ← peek with
  | none => failHere .eofInValue
  | some b =>
    if !isDigit b then failNext .invalidNumber
    else
      let start ← get
      let ds ← digits
      -- the digit that makes the exponent too great
      let rec overflowAt : List UInt8 → Nat → Nat → Option Nat
        | [], _, _ => none
        | d :: ds, value, i =>
          if maxExponent < value * 10 + digit d then some i
          else overflowAt ds (value * 10 + digit d) (i + 1)
      match overflowAt ds 0 0 with
      | some i =>
        if significand ≠ 0 && up then
          fun c => .error ⟨.numberOutOfRange,
            some ⟨start.position.line, start.position.column + i + 1⟩⟩ c
        else pure (if positive then 0.0 else -0.0)
      | none =>
        let value : Int := ds.foldl (fun n d => n * 10 + digit d) 0
        float positive significand (if up then before + value else before - value)

/-- What follows the point of a fraction. -/
def fractionPart (positive : Bool) (significand : Nat) (before : Int) : Reader Float := do
  skip
  let ds ← digits
  let (significand', count) := takeFitting ds significand 0
  if ds.isEmpty then
    match ← peek with
    | some _ => failNext .invalidNumber
    | none => failNext .eofInValue
  else
    -- Digits taken into the significand lower the exponent; those that no longer fit are dropped.
    let exponent := before - count
    match ← peek with
    | some 0x65 | some 0x45 => exponentPart positive significand' exponent
    | _ => float positive significand' exponent

/-- A whole number, which becomes a double where 64 bits do not hold it. -/
def wholeNumber (positive : Bool) (n : Nat) : Number :=
  if positive then .natural n
  else if n = 0 || Nat.pow 2 63 < n then .float (-(UInt64.ofNat n).toFloat)
  else .negative (-(n : Int))

/-- A number after its sign. -/
def numberAfterSign (positive : Bool) : Reader Number := do
  match ← peek with
  | none => failHere .eofInValue
  | some b =>
    if !isDigit b then failNext .invalidNumber
    else
      let leading ← (if b = 0x30 then do skip; pure [b] else digits)
      let (significand, count) := takeFitting leading 0 0
      let extra : Int := leading.length - count
      match ← peek with
      | some 0x2E => .float <$> fractionPart positive significand extra
      | some 0x65 | some 0x45 => .float <$> exponentPart positive significand extra
      | next =>
        -- Nothing may follow a leading zero but a point or an exponent.
        if b = 0x30 && (next.map isDigit).getD false then failNext .invalidNumber
        else if extra = 0 then pure (wholeNumber positive significand)
        else .float <$> float positive significand extra

/-- A number. -/
def number : Reader Number := do
  match ← peek with
  | some 0x2D => do skip; numberAfterSign false
  | _ => numberAfterSign true

/-- Pass over the exponent that follows an `e`. -/
def passExponent : Reader Unit := do
  skip
  match ← peek with
  | some 0x2B | some 0x2D => skip
  | _ => pure ()
  match ← peek with
  | none => failHere .invalidNumber
  | some b => if isDigit b then do discard digits else failNext .invalidNumber

/-- Pass over a number; only its form is looked at. -/
def passNumber : Reader Unit := do
  if (← peek) = some 0x2D then skip
  match ← peek with
  | none => failHere .invalidNumber
  | some b =>
    if !isDigit b then failNext .invalidNumber
    else
      if b = 0x30 then
        skip
        if ((← peek).map isDigit).getD false then failNext .invalidNumber
      else discard digits
      match ← peek with
      | some 0x2E =>
        skip
        if (← digits).isEmpty then failNext .invalidNumber
        match ← peek with
        | some 0x65 | some 0x45 => passExponent
        | _ => pure ()
      | some 0x65 | some 0x45 => passExponent
      | _ => pure ()

end Reader

end Deployment.Json
