import Deployment.Json.Cursor
import Deployment.Text.Utf8

/-! # Strings in JSON texts

A JSON string is read byte by byte: plain bytes stand for themselves, a backslash starts an
escape, and characters outside the basic plane may be written as two escapes.

* **`Reader.quotedText`** — the text of the string whose opening quote was passed.
* **`Reader.passQuoted`** — pass over such a string without keeping its text. -/

namespace Deployment.Json

/-- Where inside a string the reader stands. -/
inductive QuotedState where
  /-- Between characters. -/
  | plain
  /-- Behind a backslash. -/
  | escape
  /-- Behind `\u` and the digits `taken`, in reverse; `high` is a pending high surrogate. -/
  | digits (high : Option Nat) (taken : List UInt8)
  /-- A low surrogate has to follow; `slash` tells that its backslash was passed. -/
  | low (high : Nat) (slash : Bool)

/-- The value of a hexadecimal digit. -/
def hexValue (b : UInt8) : Option Nat :=
  if 0x30 ≤ b && b ≤ 0x39 then some (b.toNat - 0x30)
  else if 0x41 ≤ b && b ≤ 0x46 then some (b.toNat - 0x37)
  else if 0x61 ≤ b && b ≤ 0x66 then some (b.toNat - 0x57)
  else none

/-- The value of digits given in reverse. -/
def hexNumber : List UInt8 → Option Nat
  | [] => some 0
  | d :: rest => do return (← hexNumber rest) * 16 + (← hexValue d)

/-- The byte that a one-letter escape stands for. -/
def shortEscape (b : UInt8) : Option UInt8 :=
  if b = 0x22 || b = 0x5C || b = 0x2F then some b
  else if b = 0x62 then some 0x08
  else if b = 0x66 then some 0x0C
  else if b = 0x6E then some 0x0A
  else if b = 0x72 then some 0x0D
  else if b = 0x74 then some 0x09
  else none

/-- The bytes of a code point. -/
def codePoint (n : Nat) : List UInt8 := Utf8.encodeChar (Char.ofNat n)

/-- What follows four digits with value `n`: the bytes of a character, in reverse, or a high
surrogate that waits for its partner. Without `keep` lone surrogates pass. -/
def afterDigits (keep : Bool) (high : Option Nat) (n : Nat) :
    Except Cause (QuotedState × List UInt8) :=
  if !keep then .ok (.plain, [])
  else match high with
    | none =>
      if 0xDC00 ≤ n && n ≤ 0xDFFF then .error .loneSurrogate
      else if 0xD800 ≤ n && n ≤ 0xDBFF then .ok (.low n false, [])
      else .ok (.plain, (codePoint n).reverse)
    | some h =>
      if 0xDC00 ≤ n && n ≤ 0xDFFF then
        .ok (.plain, (codePoint (0x10000 + (h - 0xD800) * 0x400 + (n - 0xDC00))).reverse)
      else .error .loneSurrogate

/-- The bytes of a string up to its closing quote, in reverse behind `taken`, and the cursor
behind the quote. With `keep` the escapes have to name characters and the bytes are kept. -/
def scanQuoted (keep : Bool) :
    QuotedState → List UInt8 → List UInt8 → Position → EStateM.Result Fault Cursor (List UInt8)
  | _, _, [], p => .error ⟨.eofInString, some p⟩ ⟨[], p⟩
  | state, taken, b :: rest, p =>
    let p' := p.advance b
    let fail (cause : Cause) := EStateM.Result.error ⟨cause, some p'⟩ ⟨rest, p'⟩
    match state with
    | .plain =>
      if b = 0x22 then .ok taken ⟨rest, p'⟩
      else if b = 0x5C then scanQuoted keep .escape taken rest p'
      else if b < 0x20 then
        if keep then fail .controlCharacter
        else .error ⟨.controlCharacter, some p⟩ ⟨b :: rest, p⟩
      else scanQuoted keep .plain (if keep then b :: taken else taken) rest p'
    | .escape =>
      if b = 0x75 then scanQuoted keep (.digits none []) taken rest p'
      else match shortEscape b with
        | some c => scanQuoted keep .plain (if keep then c :: taken else taken) rest p'
        | none => fail .invalidEscape
    | .digits high ds =>
      if ds.length < 3 then scanQuoted keep (.digits high (b :: ds)) taken rest p'
      else match hexNumber (b :: ds) with
        | none => fail .invalidEscape
        | some n => match afterDigits keep high n with
          | .error cause => fail cause
          | .ok (state, more) => scanQuoted keep state (more ++ taken) rest p'
    | .low high slash =>
      if slash then
        if b = 0x75 then scanQuoted keep (.digits (some high) []) taken rest p'
        else fail .unexpectedEndOfEscape
      else if b = 0x5C then scanQuoted keep (.low high true) taken rest p'
      else fail .unexpectedEndOfEscape

namespace Reader

/-- The text of the string whose opening quote was passed. Bytes that are no text are refused
at the first that belongs to no character. -/
def quotedText : Reader String := fun c =>
  match scanQuoted true .plain [] c.rest c.position with
  | .error f c' => .error f c'
  | .ok taken c' =>
    match Utf8.decode? taken.reverse with
    | some s => .ok s c'
    | none =>
      let body := c.rest.take (c.rest.length - c'.rest.length - 1)
      .error ⟨.invalidCodePoint, some ⟨c.position.line,
        c.position.column + Utf8.validLength body + 1⟩⟩ c'

/-- Pass over the string whose opening quote was passed; its bytes need not be a text. -/
def passQuoted : Reader Unit := fun c =>
  match scanQuoted false .plain [] c.rest c.position with
  | .error f c' => .error f c'
  | .ok _ c' => .ok () c'

end Reader

end Deployment.Json
