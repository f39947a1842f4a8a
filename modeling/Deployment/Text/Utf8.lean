/-! # UTF-8

Texts as bytes and back.

* **`Utf8.encode s`** — the bytes of a text.
* **`Utf8.decode? bytes`** — the text of some bytes, if they are one; it undoes `encode`.
* **`Utf8.validLength bytes`** — how many bytes from the front form whole characters. -/

namespace Deployment.Utf8

/-- The UTF-8 bytes of a text. -/
def encode (s : String) : List UInt8 := s.toUTF8.data.toList

/-- The text whose UTF-8 bytes these are. -/
def decode? (bytes : List UInt8) : Option String := String.fromUTF8? ⟨bytes.toArray⟩

/-- Decoding the bytes of a text gives the text back. -/
@[simp] theorem decode?_encode (s : String) : decode? (encode s) = some s := by
  simp only [decode?, encode, Array.toArray_toList]
  unfold String.fromUTF8?
  split
  · rfl
  · next h => exact absurd s.isValidUTF8 (by simpa using h)

/-- A continuation byte. -/
def isTail (b : UInt8) : Bool := 0x80 ≤ b && b ≤ 0xBF

/-- The number of bytes of the character at the front, or `none` if there is no whole one. -/
def firstLength : List UInt8 → Option Nat
  | [] => none
  | a :: rest =>
    if a ≤ 0x7F then some 1
    else match rest with
      | b :: rest' =>
        if 0xC2 ≤ a && a ≤ 0xDF then (if isTail b then some 2 else none)
        else
          let low : UInt8 := if a = 0xE0 then 0xA0 else if a = 0xF0 then 0x90 else 0x80
          let high : UInt8 := if a = 0xED then 0x9F else if a = 0xF4 then 0x8F else 0xBF
          if !(low ≤ b && b ≤ high) then none
          else match rest' with
            | c :: rest'' =>
              if !isTail c then none
              else if 0xE0 ≤ a && a ≤ 0xEF then some 3
              else match rest'' with
                | d :: _ => if 0xF0 ≤ a && a ≤ 0xF4 && isTail d then some 4 else none
                | [] => none
            | [] => none
      | [] => none

/-- The length of the longest valid front part, with at most `fuel` characters. -/
def validLengthFrom : Nat → List UInt8 → Nat
  | 0, _ => 0
  | fuel + 1, bytes => match firstLength bytes with
    | some n => n + validLengthFrom fuel (bytes.drop n)
    | none => 0

/-- The length of the longest front part that consists of whole characters. -/
def validLength (bytes : List UInt8) : Nat := validLengthFrom bytes.length bytes

/-- The bytes of a character, spelled out. -/
def encodeChar (c : Char) : List UInt8 := encode (String.singleton c)

end Deployment.Utf8
