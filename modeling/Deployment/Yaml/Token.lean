/-! # Tokens of YAML texts

The pieces that a YAML text is cut into before its structure is found, and the character classes
that cut them.

* **`Yaml.Mark`** — a place in a text.
* **`Yaml.Cursor`** — what is still to be read of a text.
* **`Yaml.Token`** — a piece of a text, with `Yaml.TokenKind` telling what it is.
* **`Yaml.SyntaxFault`** — why a text is no YAML document. -/

namespace Deployment.Yaml

/-- A place in a text: characters, lines and characters of the line before it. -/
structure Mark where
  index : Nat
  line : Nat
  column : Nat
  deriving DecidableEq, Repr

/-- The start of a text. -/
def Mark.start : Mark := ⟨0, 0, 0⟩

/-- Why a text is no YAML document, and where that shows. -/
structure SyntaxFault where
  reason : String
  mark : Mark

/-- The text of a syntax fault. -/
def SyntaxFault.message (f : SyntaxFault) : String :=
  f.reason ++ " at line " ++ toString (f.mark.line + 1) ++ " column " ++
    toString (f.mark.column + 1)

/-- How a scalar was written. -/
inductive Style where
  | plain
  | quoted
  | block
  deriving DecidableEq, Repr

/-- What a piece of a text is. -/
inductive TokenKind where
  | versionDirective (major minor : Nat)
  | tagDirective (handle start : String)
  | documentStart
  | documentEnd
  | streamEnd
  | blockSequenceStart
  | blockMappingStart
  | blockEnd
  | flowSequenceStart
  | flowSequenceEnd
  | flowMappingStart
  | flowMappingEnd
  | flowEntry
  | blockEntry
  | key
  | value
  | alias (name : String)
  | anchor (name : String)
  | tag (handle suffix : String)
  | scalar (style : Style) (value : String)
  deriving DecidableEq, Repr

/-- A piece of a text with its two ends. -/
structure Token where
  kind : TokenKind
  start : Mark
  stop : Mark
  deriving Repr

/-- A space or a tab. -/
def isBlank (c : Char) : Bool := c = ' ' || c = '\t'

/-- A character that ends a line. -/
def isBreak (c : Char) : Bool :=
  c = '\n' || c = '\r' || c = '\u0085' || c = '\u2028' || c = '\u2029'

/-- A character of names: of anchors, handles and directives. -/
def isNameChar (c : Char) : Bool :=
  ('0' ≤ c && c ≤ '9') || ('a' ≤ c && c ≤ 'z') || ('A' ≤ c && c ≤ 'Z') || c = '_' || c = '-'

/-- A decimal digit. -/
def isDigit (c : Char) : Bool := '0' ≤ c && c ≤ '9'

/-- The characters that a YAML text may hold. -/
def isAllowed (c : Char) : Bool :=
  let n := c.toNat
  n = 0x09 || n = 0x0A || n = 0x0D || (0x20 ≤ n && n ≤ 0x7E) || n = 0x85 ||
    (0xA0 ≤ n && n ≤ 0xFFFD) || 0x10000 ≤ n

/-- What is still to be read of a text, and its place. -/
structure Cursor where
  rest : List Char
  mark : Mark

namespace Cursor

/-- The next character. -/
def peek (c : Cursor) : Option Char := c.rest.head?

/-- The character behind the next `n`. -/
def peekAt (c : Cursor) (n : Nat) : Option Char := (c.rest.drop n).head?

/-- The next character is `x`. -/
def sees (c : Cursor) (x : Char) : Bool := c.peek = some x

/-- The character behind the next `n` is a blank, a line break or the end. -/
def gapAt (c : Cursor) (n : Nat) : Bool :=
  match c.peekAt n with
  | none => true
  | some x => isBlank x || isBreak x

/-- The next character is a line break or the end. -/
def lineEnds (c : Cursor) : Bool :=
  match c.peek with
  | none => true
  | some x => isBreak x

/-- The next character is a blank. -/
def onBlank (c : Cursor) : Bool := (c.peek.map isBlank).getD false

/-- The next character is a line break. -/
def onBreak (c : Cursor) : Bool := (c.peek.map isBreak).getD false

/-- The cursor one character further on. -/
def skip (c : Cursor) : Cursor :=
  match c.rest with
  | [] => c
  | _ :: rest => ⟨rest, c.mark.index + 1, c.mark.line, c.mark.column + 1⟩

/-- The cursor `n` characters further on. -/
def skipN : Nat → Cursor → Cursor
  | 0, c => c
  | n + 1, c => skipN n c.skip

/-- The cursor behind the line break that follows. -/
def skipLine (c : Cursor) : Cursor :=
  match c.rest with
  | '\r' :: '\n' :: rest => ⟨rest, c.mark.index + 2, c.mark.line + 1, 0⟩
  | x :: rest => if isBreak x then ⟨rest, c.mark.index + 1, c.mark.line + 1, 0⟩ else c
  | [] => c

/-- What the line break that follows contributes to a scalar. -/
def lineBreak (c : Cursor) : List Char :=
  match c.rest with
  | x :: _ => if x = '\u2028' || x = '\u2029' then [x] else if isBreak x then ['\n'] else []
  | [] => []

/-- The line starts with `---` or `...` on its own. -/
def onDocumentMark (c : Cursor) : Bool :=
  c.mark.column = 0 && (c.rest.take 3 = ['-', '-', '-'] || c.rest.take 3 = ['.', '.', '.']) &&
    c.gapAt 3

/-- Take characters while `p` holds, behind those already taken in reverse. -/
def spanFrom (p : Char → Bool) : Nat → Cursor → List Char → List Char × Cursor
  | 0, c, taken => (taken.reverse, c)
  | fuel + 1, c, taken => match c.peek with
    | some x => if p x then spanFrom p fuel c.skip (x :: taken) else (taken.reverse, c)
    | none => (taken.reverse, c)

/-- Take characters while `p` holds. -/
def span (p : Char → Bool) (c : Cursor) : List Char × Cursor :=
  spanFrom p (c.rest.length + 1) c []

/-- The cursor behind blanks. -/
def skipBlanks (c : Cursor) : Cursor := (c.span isBlank).2

/-- The cursor at the end of the line, if a comment follows. -/
def skipComment (c : Cursor) : Cursor :=
  if c.sees '#' then (c.span fun x => !isBreak x).2 else c

end Cursor

end Deployment.Yaml
