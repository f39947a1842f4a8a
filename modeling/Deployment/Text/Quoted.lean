import Deployment.Text.Hidden

/-! # Quoted texts in messages

How a message shows a text that it quotes: between double quotes, with what a reader could not
see written as an escape.

* **`Text.quoted s`** — the quoted form of `s`.
* **`Text.hexDigits n`** — `n` in lower-case hexadecimal digits. -/

namespace Deployment.Text

/-- The digits of `n` in base 16, in lower case and without leading zeros. -/
def hexDigits (n : Nat) : String := String.ofList (Nat.toDigits 16 n)

/-- One character inside quotes: the two delimiters and the four common control characters have
short escapes, hidden characters are given by their code point. -/
def quotedChar (c : Char) : String :=
  if c = '\x00' then "\\0"
  else if c = '\t' then "\\t"
  else if c = '\r' then "\\r"
  else if c = '\n' then "\\n"
  else if c = '\\' then "\\\\"
  else if c = '"' then "\\\""
  else if isHidden c then "\\u\x7b" ++ hexDigits c.toNat ++ "\x7d"
  else String.singleton c

/-- `s` between double quotes, each character as `quotedChar` gives it. -/
def quoted (s : String) : String :=
  s.toList.foldl (fun out c => out ++ quotedChar c) "\"" ++ "\""

end Deployment.Text
