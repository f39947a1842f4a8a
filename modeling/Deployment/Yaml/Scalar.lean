import Deployment.Document.Buffered

/-! # What a plain scalar of YAML means

A scalar without quotes may stand for nothing, a truth value or a number instead of a text.

* **`Yaml.Meaning`** — what a scalar stands for.
* **`Meaning.ofPlain`** — by its letters alone.
* **`Meaning.ofTagged`** — by one of the tags of the core schema. -/

namespace Deployment.Yaml

/-- What a scalar stands for. Whole numbers of more than 64 bits keep the name of their width. -/
inductive Meaning where
  | null
  | bool (b : Bool)
  | natural (n : Nat)
  | negative (n : Int)
  | wide (n : Int) (width : String)
  | float (f : Float)
  | text (s : String)

namespace Meaning

/-- The spellings of null. -/
def isNull (s : String) : Bool := ["null", "Null", "NULL", "~"].contains s

/-- The truth value of a spelling. -/
def bool? (s : String) : Option Bool :=
  if ["true", "True", "TRUE"].contains s then some true
  else if ["false", "False", "FALSE"].contains s then some false
  else none

/-- The value of a digit in a base up to 16. -/
def digitIn (base : Nat) (c : Char) : Option Nat :=
  let v :=
    if '0' ≤ c && c ≤ '9' then c.toNat - 48
    else if 'a' ≤ c && c ≤ 'f' then c.toNat - 87
    else if 'A' ≤ c && c ≤ 'F' then c.toNat - 55
    else base
  if v < base then some v else none

/-- The value of one or more digits in a base. -/
def digitsIn (base : Nat) : List Char → Option Nat
  | [] => none
  | c :: cs => (c :: cs).foldlM (fun n d => do return n * base + (← digitIn base d)) 0

/-- Digits behind a leading zero are a text, as in `007`. -/
def isPadded (s : List Char) : Bool :=
  let s := match s with
    | '-' :: r => r
    | '+' :: r => r
    | s => s
  match s with
  | '0' :: c :: rest => (c :: rest).all Char.isDigit
  | _ => false

/-- What follows one plus sign. -/
def afterPlus : List Char → List Char
  | '+' :: s => s
  | s => s

/-- The magnitude of a whole number without a sign: in base 16, 8 or 2 behind `0x`, `0o` or `0b`,
else in base 10. -/
def magnitude? : List Char → Option Nat
  | '0' :: 'x' :: s => digitsIn 16 s
  | '0' :: 'o' :: s => digitsIn 8 s
  | '0' :: 'b' :: s => digitsIn 2 s
  | s => if isPadded s then none else digitsIn 10 s

/-- A whole number, by the smallest of the widths that holds it. -/
def whole? (s : List Char) : Option Meaning :=
  match afterPlus s with
  | '-' :: r =>
    if s.head? = some '+' then none
    else match magnitude? r with
      | some n =>
        if n ≤ Nat.pow 2 63 then some (.negative (-(n : Int)))
        else if n ≤ Nat.pow 2 127 then some (.wide (-(n : Int)) "i128")
        else none
      | none => none
  | r => match magnitude? r with
    | some n =>
      if n < Nat.pow 2 64 then some (.natural n)
      else if n < Nat.pow 2 128 then some (.wide n "u128")
      else none
    | none => none

/-- A decimal as a double: `digits · 10 ^ exponent`, without forming powers that are out of
range anyway. -/
def decimal (digits : Nat) (exponent : Int) : Float :=
  let size : Int := (toString digits).length + exponent
  if digits = 0 || size < -400 then 0.0
  else if 400 < size then 1.0 / 0.0
  else if 0 ≤ exponent then OfScientific.ofScientific digits false exponent.toNat
  else OfScientific.ofScientific digits true (-exponent).toNat

/-- The exponent of a decimal: nothing, or `e`, a sign and digits. -/
def exponent? : List Char → Option Int
  | [] => some 0
  | e :: rest =>
    if e = 'e' || e = 'E' then
      match rest with
      | '-' :: ds => (digitsIn 10 ds).map fun n => -(n : Int)
      | '+' :: ds => (digitsIn 10 ds).map fun n => (n : Int)
      | ds => (digitsIn 10 ds).map fun n => (n : Int)
    else none

/-- A decimal fraction without a sign. -/
def fraction? (s : List Char) : Option Float := do
  let before := s.takeWhile Char.isDigit
  let rest := s.dropWhile Char.isDigit
  let (after, rest) := match rest with
    | '.' :: r => (r.takeWhile Char.isDigit, r.dropWhile Char.isDigit)
    | r => ([], r)
  let digits := before ++ after
  let n ← digitsIn 10 digits
  let e ← exponent? rest
  return decimal n (e - after.length)

/-- A fraction with an optional sign, an infinity or the value that is no number. -/
def float? (s : List Char) : Option Float :=
  let word := String.ofList (afterPlus s)
  if [".inf", ".Inf", ".INF"].contains word then some (1.0 / 0.0)
  else if ["-.inf", "-.Inf", "-.INF"].contains (String.ofList s) then some (-(1.0 / 0.0))
  else if [".nan", ".NaN", ".NAN"].contains (String.ofList s) then some (0.0 / 0.0)
  else
    let finite (f : Option Float) : Option Float := f.filter Float.isFinite
    match afterPlus s with
    | '-' :: r => if s.head? = some '+' then none else finite ((fraction? r).map (-·))
    | '+' :: _ => none
    | r => finite (fraction? r)

/-- What a scalar without quotes and without a tag stands for. -/
def ofPlain (s : String) : Meaning :=
  if s.isEmpty || isNull s then .null
  else match bool? s with
    | some b => .bool b
    | none => match whole? s.toList with
      | some m => m
      | none =>
        if isPadded s.toList then .text s
        else match float? s.toList with
          | some f => .float f
          | none => .text s

/-- The name of a tag of the core schema. -/
def coreTag (name : String) : String := "tag:yaml.org,2002:" ++ name

/-- What a scalar with a tag and letters stands for; a tag that is no concern of the schema
leaves a text. -/
def ofTagged (tag s : String) : Except Mismatch Meaning :=
  if tag = coreTag "bool" then
    match bool? s with
    | some b => .ok (.bool b)
    | none => .error (.value (.text s) "a boolean")
  else if tag = coreTag "int" then
    match whole? s.toList with
    | some m => .ok m
    | none => .error (.value (.text s) "an integer")
  else if tag = coreTag "float" then
    match float? s.toList with
    | some f => .ok (.float f)
    | none => .error (.value (.text s) "a float")
  else if tag = coreTag "null" then
    if isNull s then .ok .null else .error (.value (.text s) "null")
  else .ok (.text s)

/-- How a refusal names what a scalar stands for. -/
def found : Meaning → Found
  | .null => .null
  | .bool b => .bool b
  | .natural n => .integer n
  | .negative n => .integer n
  | .wide n width => .wide n width
  | .float f => .float f
  | .text s => .text s

/-- The meaning, set aside; whole numbers of more than 64 bits cannot be. -/
def buffered : Meaning → Except Mismatch Buffered
  | .null => .ok .null
  | .bool b => .ok (.bool b)
  | .natural n => .ok (.natural n)
  | .negative n => .ok (.negative n)
  | .wide n width => .error (.kind (.wide n width) "any value")
  | .float f => .ok (.float f)
  | .text s => .ok (.text s)

end Meaning

end Deployment.Yaml
