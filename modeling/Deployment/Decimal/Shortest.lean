/-! # Shortest decimals of binary fractions

The decimal with the fewest digits that still reads back as a given double, found in exact
arithmetic: the double is a fraction, the reals that round to it are an interval, and the
decimals of `n` digits are a grid that is searched for `n = 1, 2, …`.

* **`Decimal.Binary`** — a finite double as `mantissa · 2 ^ exponent`.
* **`Decimal.shortest`** — digits and decimal point of the shortest decimal.
* **`Decimal.Style`** — where a text leaves the positional form. -/

namespace Deployment

/-- A decimal `digits · 10 ^ exponent`. -/
structure Decimal where
  digits : Nat
  exponent : Int
  deriving DecidableEq, Repr

namespace Decimal

/-- A finite double without its sign: `mantissa · 2 ^ exponent`. -/
structure Binary where
  mantissa : Nat
  exponent : Int
  deriving DecidableEq, Repr

/-- The value of a finite double from its 64 bits. -/
def Binary.ofBits (bits : Nat) : Binary :=
  let fraction : Nat := bits % Nat.pow 2 52
  let biased : Nat := bits / Nat.pow 2 52 % Nat.pow 2 11
  if biased = 0 then ⟨fraction, -1074⟩ else ⟨Nat.pow 2 52 + fraction, (biased : Int) - 1075⟩

/-- A positive fraction; `den` is never zero. -/
structure Fraction where
  num : Nat
  den : Nat
  deriving DecidableEq, Repr

/-- `n · 2 ^ e` as a fraction. -/
def Fraction.scaled (n : Nat) (e : Int) : Fraction :=
  if 0 ≤ e then ⟨n * Nat.pow 2 e.toNat, 1⟩ else ⟨n, Nat.pow 2 (-e).toNat⟩

/-- `d · 10 ^ g ≤ x`. -/
def Fraction.atLeast (x : Fraction) (d : Nat) (g : Int) : Bool :=
  if 0 ≤ g then d * Nat.pow 10 g.toNat * x.den ≤ x.num
  else d * x.den ≤ x.num * Nat.pow 10 (-g).toNat

/-- `x ≤ d · 10 ^ g`. -/
def Fraction.atMost (x : Fraction) (d : Nat) (g : Int) : Bool :=
  if 0 ≤ g then x.num ≤ d * Nat.pow 10 g.toNat * x.den
  else x.num * Nat.pow 10 (-g).toNat ≤ d * x.den

/-- The greatest `d` with `d · 10 ^ g ≤ x`. -/
def Fraction.floorAt (x : Fraction) (g : Int) : Nat :=
  if 0 ≤ g then x.num / (Nat.pow 10 g.toNat * x.den)
  else x.num * Nat.pow 10 (-g).toNat / x.den

/-- The exponent of the leading digit: the greatest `k` between `-400` and `400` with
`10 ^ k ≤ x`, which covers every finite double. -/
def Fraction.magnitude (x : Fraction) : Int :=
  (List.range 801).foldl (fun k (i : Nat) => if x.atLeast 1 ((i : Int) - 400) then i - 400 else k)
    (-400)

/-- The reals that round to a double, with the double itself. The ends belong to the interval
exactly when the mantissa is even. -/
structure Interval where
  low : Fraction
  value : Fraction
  high : Fraction
  closed : Bool

/-- The interval of `b`; below a power of two the neighbour is only half as far away. -/
def Interval.of (b : Binary) : Interval :=
  let below := if b.mantissa = Nat.pow 2 52 && b.exponent ≠ -1074 then 1 else 2
  { low := .scaled (4 * b.mantissa - below) (b.exponent - 2)
    value := .scaled (4 * b.mantissa) (b.exponent - 2)
    high := .scaled (4 * b.mantissa + 2) (b.exponent - 2)
    closed := b.mantissa % 2 = 0 }

/-- The decimal `d · 10 ^ g` rounds to the double. -/
def Interval.contains (i : Interval) (d : Nat) (g : Int) : Bool :=
  if i.closed then i.low.atMost d g && i.high.atLeast d g
  else !i.low.atLeast d g && !i.high.atMost d g

/-- The decimal on the grid `10 ^ g` that reads back, the nearer one if two do, the upper one
if they are equally near. -/
def Interval.onGrid (i : Interval) (g : Int) : Option Decimal :=
  let d := i.value.floorAt g
  match i.contains d g, i.contains (d + 1) g with
  | false, false => none
  | true, false => some ⟨d, g⟩
  | false, true => some ⟨d + 1, g⟩
  | true, true =>
    -- `2 · value < (2 · d + 1) · 10 ^ g` decides which neighbour is nearer
    let twice : Fraction := ⟨2 * i.value.num, i.value.den⟩
    some (if twice.atLeast (2 * d + 1) g then ⟨d + 1, g⟩ else ⟨d, g⟩)

/-- `d` without its trailing zeros, at most `fuel` of them, and how many were taken off. -/
def stripZeros : Nat → Nat → Nat × Nat
  | 0, d => (d, 0)
  | fuel + 1, d => if d ≠ 0 && d % 10 = 0 then
      let (r, n) := stripZeros fuel (d / 10)
      (r, n + 1)
    else (d, 0)

/-- The shortest decimal of a positive double: the first of the grids with 1 to 17 digits that
holds a decimal which reads back. -/
def shortest (b : Binary) : Decimal :=
  let i := Interval.of b
  let k := i.value.magnitude
  let hit := (List.range 17).findSome? fun (n : Nat) => i.onGrid (k - n)
  let found := hit.getD ⟨i.value.floorAt (k - 16), k - 16⟩
  let (d, zeros) := stripZeros 400 found.digits
  ⟨d, found.exponent + zeros⟩

/-- How a text of a number is laid out: the exponents of the leading digit that are written
positionally (`none`: all of them) and whether a positive exponent carries its sign. -/
structure Style where
  positional : Option (Int × Int)
  plus : Bool

/-- `n` zeros. -/
def zeros (n : Nat) : String := String.ofList (List.replicate n '0')

/-- A positional number always shows at least one digit on both sides of the point. -/
def positionalText (digits : String) (lead : Int) : String :=
  let n : Int := digits.length
  if n ≤ lead + 1 then digits ++ zeros (lead + 1 - n).toNat ++ ".0"
  else if 0 ≤ lead then
    String.ofList (digits.toList.take (lead + 1).toNat) ++ "." ++
      String.ofList (digits.toList.drop (lead + 1).toNat)
  else "0." ++ zeros (-lead - 1).toNat ++ digits

/-- A number with an exponent shows one digit before the point, and the point only before more
digits. -/
def scientificText (plus : Bool) (digits : String) (lead : Int) : String :=
  let tail := String.ofList (digits.toList.drop 1)
  String.ofList (digits.toList.take 1) ++ (if tail.isEmpty then "" else "." ++ tail) ++ "e" ++
    (if 0 ≤ lead then (if plus then "+" else "") else "-") ++ toString lead.natAbs

/-- The text of a decimal in a style. -/
def Style.text (style : Style) (d : Decimal) : String :=
  let digits := toString d.digits
  let lead := d.exponent + digits.length - 1
  match style.positional with
  | none => positionalText digits lead
  | some (lo, hi) =>
    if lo ≤ lead && lead ≤ hi then positionalText digits lead
    else scientificText style.plus digits lead

/-- The text of a double: its sign, then the shortest decimal in the given style. -/
def Style.float (style : Style) (f : Float) : String :=
  if f.isNaN then "NaN"
  else
    let bits := f.toBits.toNat
    let sign := if bits < Nat.pow 2 63 then "" else "-"
    if f.isInf then sign ++ "inf"
    else
      let b := Binary.ofBits bits
      sign ++ if b.mantissa = 0 then "0.0" else style.text (shortest b)

end Decimal

end Deployment
