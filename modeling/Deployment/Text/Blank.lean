/-! # Blank characters

Which characters count as white space in principals and tokens, and how a text is trimmed.

* **`Text.isBlank c`** — `c` has the Unicode property `White_Space`.
* **`Text.trim s`** — `s` without the blank characters at its two ends. -/

namespace Deployment.Text

/-- The ranges of the Unicode property `White_Space`, in order. -/
def blankRanges : List (Nat × Nat) :=
  [(0x09, 0x0D), (0x20, 0x20), (0x85, 0x85), (0xA0, 0xA0), (0x1680, 0x1680), (0x2000, 0x200A),
   (0x2028, 0x2029), (0x202F, 0x202F), (0x205F, 0x205F), (0x3000, 0x3000)]

/-- A character is blank when its code point lies in one of `blankRanges`. -/
def isBlank (c : Char) : Bool :=
  blankRanges.any fun r => r.1 ≤ c.toNat && c.toNat ≤ r.2

/-- The characters of `s` without the blank ones in front. -/
def dropBlanks (s : List Char) : List Char := s.dropWhile isBlank

/-- `s` without the blank characters in front and behind. -/
def trim (s : String) : String :=
  String.ofList (dropBlanks (dropBlanks s.toList).reverse).reverse

/-- A text is blank when it holds blank characters only. -/
def allBlank (s : String) : Bool := s.toList.all isBlank

end Deployment.Text
