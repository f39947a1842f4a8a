import Deployment.Data.NameMap

/-! # Characters, strings and keys of TOML

The smallest parts of a TOML text. A reader takes them from the front of the characters that are
left, or fails; all failures are alike.

* **`Toml.Reader`** — a step of reading.
* **`Toml.blanks`**, **`Toml.endOfLine`**, **`Toml.blankLines`** — what stands between parts.
* **`Toml.string`**, **`Toml.key`** — strings and keys. -/

namespace Deployment.Toml

/-- A step of reading: it takes characters from the front, or fails. -/
abbrev Reader := StateT (List Char) Option

/-- Fail. -/
def fail {α : Type} : Reader α := fun _ => none

/-- The next character, which stays. -/
def peek : Reader (Option Char) := fun s => some (s.head?, s)

/-- Take the next character if it is `c`. -/
def accept (c : Char) : Reader Bool := fun s =>
  match s with
  | c' :: rest => if c' = c then some (true, rest) else some (false, s)
  | [] => some (false, [])

/-- Take the next character, which has to be `c`. -/
def expect (c : Char) : Reader Unit := do
  if ← accept c then pure () else fail

/-- Take the given characters, which have to follow. -/
def word : List Char → Reader Unit
  | [] => pure ()
  | c :: rest => do
    expect c
    word rest

/-- Take characters as long as they are of a class. -/
def takeAll (p : Char → Bool) : Reader (List Char) := fun s =>
  some (s.takeWhile p, s.dropWhile p)

/-- Take at least one character of a class. -/
def takeSome (p : Char → Bool) : Reader (List Char) := do
  let cs ← takeAll p
  if cs.isEmpty then fail else pure cs

/-- Take `n` characters of a class. -/
def takeExactly (p : Char → Bool) : Nat → Reader (List Char)
  | 0 => pure []
  | n + 1 => do
    match ← get with
    | c :: rest =>
      if p c then
        set rest
        return c :: (← takeExactly p n)
      else fail
    | [] => fail

/-- The number of characters that are left, which bounds every loop of a reader. -/
def remaining : Reader Nat := fun s => some (s.length, s)

/-! ## Blanks, comments and line ends -/

/-- A space or a tab. -/
def isBlank (c : Char) : Bool := c = ' ' || c = '\t'

/-- A character that may stand in a comment: no control character but the tab. -/
def isCommentChar (c : Char) : Bool := c = '\t' || (' ' ≤ c && c ≠ '\x7f')

/-- Blanks, perhaps none. -/
def blanks : Reader Unit := discard (takeAll isBlank)

/-- Take a line end if it follows. -/
def acceptLineEnd : Reader Bool := fun s =>
  match s with
  | '\n' :: rest => some (true, rest)
  | '\r' :: '\n' :: rest => some (true, rest)
  | _ => some (false, s)

/-- Take a comment if it follows. -/
def acceptComment : Reader Bool := do
  if ← accept '#' then
    let _ ← takeAll isCommentChar
    pure true
  else pure false

/-- The end of a line: blanks and perhaps a comment, then a line end or the end of the text. -/
def endOfLine : Reader Unit := do
  blanks
  let _ ← acceptComment
  if (← peek).isSome then
    if ← acceptLineEnd then pure () else fail

/-- Blanks, comments and line ends in a list, with at most so many lines. -/
def blankLinesFrom : Nat → Reader Unit
  | 0 => fail
  | fuel + 1 => do
    blanks
    if ← acceptComment then
      if ← acceptLineEnd then blankLinesFrom fuel else fail
    else if ← acceptLineEnd then blankLinesFrom fuel
    else pure ()

/-- Blanks, comments and line ends in a list. -/
def blankLines : Reader Unit := do blankLinesFrom ((← remaining) + 1)

/-! ## Strings -/

/-- A digit in base 16. -/
def isHexDigit (c : Char) : Bool :=
  c.isDigit || ('a' ≤ c && c ≤ 'f') || ('A' ≤ c && c ≤ 'F')

/-- The value of a digit in base 16. -/
def hexValue (c : Char) : Nat :=
  if c.isDigit then c.toNat - 48 else if 'a' ≤ c then c.toNat - 87 else c.toNat - 55

/-- The character of a number in base 16 with `n` digits. -/
def codePoint (n : Nat) : Reader Char := do
  let v := (← takeExactly isHexDigit n).foldl (fun v c => v * 16 + hexValue c) 0
  if Nat.isValidChar v then pure (Char.ofNat v) else fail

/-- The character of an escape, behind its backslash. -/
def escape : Reader Char := do
  match ← get with
  | [] => fail
  | c :: rest =>
    set rest
    match c with
    | 'b' => pure '\x08'
    | 't' => pure '\t'
    | 'n' => pure '\n'
    | 'f' => pure '\x0c'
    | 'r' => pure '\r'
    | '"' => pure '"'
    | '\\' => pure '\\'
    | 'u' => codePoint 4
    | 'U' => codePoint 8
    | _ => fail

/-- A character that may stand in a string as it is. -/
def isStringChar (quote : Char) (c : Char) : Bool := isCommentChar c && c ≠ quote

/-- The inside of a string on one line, up to its closing quote, behind characters already read,
in reverse. Between double quotes there are escapes. -/
def lineString (quote : Char) : Nat → List Char → Reader String
  | 0, _ => fail
  | fuel + 1, taken => do
    match ← get with
    | [] => fail
    | c :: rest =>
      if c = quote then
        set rest
        return String.ofList taken.reverse
      else if c = '\\' && quote = '"' then
        set rest
        lineString quote fuel ((← escape) :: taken)
      else if isStringChar quote c then
        set rest
        lineString quote fuel (c :: taken)
      else fail

/-- A backslash at the end of a line takes the line end and all blanks after it away. -/
def acceptContinuation : Reader Bool := fun s =>
  match s.dropWhile isBlank with
  | '\n' :: rest => some (true, rest)
  | '\r' :: '\n' :: rest => some (true, rest)
  | _ => some (false, s)

/-- Blanks and line ends, with at most so many lines. -/
def blankSpace : Nat → Reader Unit
  | 0 => fail
  | fuel + 1 => do
    blanks
    if ← acceptLineEnd then blankSpace fuel else pure ()

/-- The number of quotes at the front. -/
def quotesAhead (quote : Char) : Reader Nat := fun s =>
  some ((s.takeWhile fun c => c = quote).length, s)

/-- The inside of a string on several lines, up to its three closing quotes; up to two more quotes
before these belong to it. -/
def linesString (quote : Char) : Nat → List Char → Reader String
  | 0, _ => fail
  | fuel + 1, taken => do
    let quotes ← quotesAhead quote
    if 3 ≤ quotes then
      -- Three quotes close the string; up to two more before them belong to it.
      if 5 < quotes then fail
      else
        modify (·.drop quotes)
        return String.ofList (List.replicate (quotes - 3) quote ++ taken).reverse
    else if ← acceptLineEnd then linesString quote fuel ('\n' :: taken)
    else
      match ← get with
      | [] => fail
      | c :: rest =>
        set rest
        if c = quote then linesString quote fuel (c :: taken)
        else if c = '\\' && quote = '"' then
          -- A backslash at the end of a line drops the break and all blank space behind it.
          if ← acceptContinuation then
            blankSpace ((← remaining) + 1)
            linesString quote fuel taken
          else linesString quote fuel ((← escape) :: taken)
        else if isCommentChar c then linesString quote fuel (c :: taken)
        else fail

/-- A string; a quote follows. -/
def string : Reader String := do
  match ← get with
  | q :: rest =>
    if (← quotesAhead q) < 3 then
      set rest
      lineString q ((← remaining) + 1) []
    else
      set (rest.drop 2)
      let _ ← acceptLineEnd
      linesString q ((← remaining) + 1) []
  | [] => fail

/-! ## Keys -/

/-- A character of a key without quotes. -/
def isKeyChar (c : Char) : Bool := c.isAlphanum || c = '_' || c = '-'

/-- A key without dots; strings on several lines are none. -/
def simpleKey : Reader String := do
  match ← get with
  | c :: rest =>
    if c = '"' || c = '\'' then
      set rest
      lineString c ((← remaining) + 1) []
    else String.ofList <$> takeSome isKeyChar
  | [] => fail

/-- How deep values may be nested, and how many parts a key may have. -/
def maxLevels : Nat := 79

/-- The parts of a key, at most so many, with dots between them. -/
def keyParts : Nat → Reader (List String)
  | 0 => fail
  | n + 1 => do
    blanks
    let part ← simpleKey
    blanks
    if ← accept '.' then return part :: (← keyParts n) else return [part]

/-- A key: the parts that lead to a table, and the part in that table. -/
def key : Reader (List String × String) := do
  let parts ← keyParts maxLevels
  match parts.getLast? with
  | some last => return (parts.dropLast, last)
  | none => fail

end Deployment.Toml
