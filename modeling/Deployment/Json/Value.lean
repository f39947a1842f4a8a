/-! # JSON documents and their text

The documents that the program writes, and the two texts it writes them as.

* **`Json`** — a document; the members of an object keep their order.
* **`Json.compact`** — the text without any blanks.
* **`Json.pretty`** — the text with one member or item a line, indented by two spaces.
* **`Json.sorted`** — the document with the members of all objects in the order of their names. -/

namespace Deployment

/-- A JSON document. -/
inductive Json where
  | null
  | bool (b : Bool)
  | number (n : Int)
  | text (s : String)
  | list (items : List Json)
  | object (members : List (String × Json))
  deriving Repr, Inhabited

namespace Json

/-- The digit of `n < 16` in base 16, in lower case. -/
def hexDigit (n : Nat) : Char :=
  if n < 10 then Char.ofNat (48 + n) else Char.ofNat (87 + n)

/-- A character inside a JSON string. The two delimiters and the control characters are
escaped, all else stands for itself. -/
def escapeChar (c : Char) : String :=
  if c = '"' then "\\\""
  else if c = '\\' then "\\\\"
  else if c = '\n' then "\\n"
  else if c = '\r' then "\\r"
  else if c = '\t' then "\\t"
  else if c = '\x08' then "\\b"
  else if c = '\x0c' then "\\f"
  else if c.toNat < 32 then
    "\\u00" ++ String.ofList [hexDigit (c.toNat / 16), hexDigit (c.toNat % 16)]
  else String.singleton c

/-- The characters of a JSON string between its quotes. -/
def escape (s : List Char) : String :=
  s.foldl (fun out c => out ++ escapeChar c) ""

/-- A JSON string with its quotes. -/
def quote (s : String) : String := "\"" ++ escape s.toList ++ "\""

mutual

/-- The text of a document without blanks. -/
def compact : Json → String
  | .null => "null"
  | .bool true => "true"
  | .bool false => "false"
  | .number n => toString n
  | .text s => quote s
  | .list items => "[" ++ compactItems items ++ "]"
  | .object members => "\x7b" ++ compactMembers members ++ "\x7d"

/-- Items with commas between them. -/
def compactItems : List Json → String
  | [] => ""
  | [v] => compact v
  | v :: rest => compact v ++ "," ++ compactItems rest

/-- Members with commas between them. -/
def compactMembers : List (String × Json) → String
  | [] => ""
  | [(k, v)] => quote k ++ ":" ++ compact v
  | (k, v) :: rest => quote k ++ ":" ++ compact v ++ "," ++ compactMembers rest

end

/-- The start of a line at a depth: two spaces for each level. -/
def indent (depth : Nat) : String := "\n" ++ String.ofList (List.replicate (2 * depth) ' ')

mutual

/-- The indented text of a document at a depth; an empty list or object stays on one line. -/
def prettyAt (depth : Nat) : Json → String
  | .list (v :: rest) =>
    "[" ++ prettyItems (depth + 1) (v :: rest) ++ indent depth ++ "]"
  | .object (m :: rest) =>
    "\x7b" ++ prettyMembers (depth + 1) (m :: rest) ++ indent depth ++ "\x7d"
  | .list [] => "[]"
  | .object [] => "\x7b\x7d"
  | .null => "null"
  | .bool true => "true"
  | .bool false => "false"
  | .number n => toString n
  | .text s => quote s

/-- Items, each on a line of its own. -/
def prettyItems (depth : Nat) : List Json → String
  | [] => ""
  | [v] => indent depth ++ prettyAt depth v
  | v :: rest => indent depth ++ prettyAt depth v ++ "," ++ prettyItems depth rest

/-- Members, each on a line of its own. -/
def prettyMembers (depth : Nat) : List (String × Json) → String
  | [] => ""
  | [(k, v)] => indent depth ++ quote k ++ ": " ++ prettyAt depth v
  | (k, v) :: rest =>
    indent depth ++ quote k ++ ": " ++ prettyAt depth v ++ "," ++ prettyMembers depth rest

end

/-- The indented text of a document. -/
def pretty (v : Json) : String := prettyAt 0 v

mutual

/-- The document with the members of all objects in the order of their names. -/
def sorted : Json → Json
  | .list items => .list (sortedItems items)
  | .object members => .object ((sortedMembers members).mergeSort fun a b => a.1 ≤ b.1)
  | .null => .null
  | .bool b => .bool b
  | .number n => .number n
  | .text s => .text s

/-- The items, each with its members in order. -/
def sortedItems : List Json → List Json
  | [] => []
  | v :: rest => sorted v :: sortedItems rest

/-- The members, each with the members of its value in order. -/
def sortedMembers : List (String × Json) → List (String × Json)
  | [] => []
  | (k, v) :: rest => (k, sorted v) :: sortedMembers rest

end

end Json

end Deployment
