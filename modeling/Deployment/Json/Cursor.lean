import Deployment.Document.Mismatch

/-! # Places in a JSON text

A JSON text is read from front to back, byte by byte. A refusal carries the place that the reader
had reached, counted in lines and in bytes of the last line.

* **`Json.Position`** — a place in the text.
* **`Json.Cursor`** — what is still to be read, and where it starts.
* **`Json.Fault`** — a refusal, with `Json.Fault.message` as its text.
* **`Json.Reader`** — a step of reading. -/

namespace Deployment.Json

/-- A place in a text: the line, and the bytes before it in that line. -/
structure Position where
  line : Nat
  column : Nat
  deriving DecidableEq, Repr

/-- The start of a text. -/
def Position.start : Position := ⟨1, 0⟩

/-- The place after one more byte. -/
def Position.advance (p : Position) (b : UInt8) : Position :=
  if b = 0x0A then ⟨p.line + 1, 0⟩ else ⟨p.line, p.column + 1⟩

/-- What is still to be read and its place. -/
structure Cursor where
  rest : List UInt8
  position : Position

/-- The cursor at the start of a text. -/
def Cursor.ofBytes (bytes : List UInt8) : Cursor := ⟨bytes, .start⟩

/-- The cursor one byte further on; at the end of the text it stays. -/
def Cursor.next (c : Cursor) : Cursor :=
  match c.rest with
  | [] => c
  | b :: rest => ⟨rest, c.position.advance b⟩

/-- Why a JSON text is refused: a fault of the text, or a value that is not wanted there. -/
inductive Cause where
  | eofInList
  | eofInObject
  | eofInString
  | eofInValue
  | expectedColon
  | expectedListCommaOrEnd
  | expectedObjectCommaOrEnd
  | expectedIdent
  | expectedValue
  | invalidEscape
  | invalidNumber
  | numberOutOfRange
  | invalidCodePoint
  | controlCharacter
  | keyMustBeString
  | loneSurrogate
  | trailingComma
  | trailingCharacters
  | unexpectedEndOfEscape
  | nestedTooDeep
  | mismatch (m : Mismatch)

/-- How JSON texts word the absence of a value and lay out fractions. -/
def wording : Wording := ⟨"null", ⟨some (-5, 15), true⟩⟩

/-- The text of a cause. -/
def Cause.message : Cause → String
  | .eofInList => "EOF while parsing a list"
  | .eofInObject => "EOF while parsing an object"
  | .eofInString => "EOF while parsing a string"
  | .eofInValue => "EOF while parsing a value"
  | .expectedColon => "expected `:`"
  | .expectedListCommaOrEnd => "expected `,` or `]`"
  | .expectedObjectCommaOrEnd => "expected `,` or `\x7d`"
  | .expectedIdent => "expected ident"
  | .expectedValue => "expected value"
  | .invalidEscape => "invalid escape"
  | .invalidNumber => "invalid number"
  | .numberOutOfRange => "number out of range"
  | .invalidCodePoint => "invalid unicode code point"
  | .controlCharacter =>
    "control character (\\u0000-\\u001F) found while parsing a string"
  | .keyMustBeString => "key must be a string"
  | .loneSurrogate => "lone leading surrogate in hex escape"
  | .trailingComma => "trailing comma"
  | .trailingCharacters => "trailing characters"
  | .unexpectedEndOfEscape => "unexpected end of hex escape"
  | .nestedTooDeep => "recursion limit exceeded"
  | .mismatch m => m.message wording

/-- A refusal; a mismatch found away from the text has no place until a reader gives it one. -/
structure Fault where
  cause : Cause
  place : Option Position

/-- Give a fault a place if it has none. -/
def Fault.locate (f : Fault) (p : Position) : Fault := ⟨f.cause, some (f.place.getD p)⟩

/-- The text of a refusal. -/
def Fault.message (f : Fault) : String :=
  match f.place with
  | none => f.cause.message
  | some p =>
    f.cause.message ++ " at line " ++ toString p.line ++ " column " ++ toString p.column

/-- A step of reading: it moves the cursor, also when it refuses. -/
abbrev Reader := EStateM Fault Cursor

namespace Reader

variable {α : Type}

/-- The next byte, which stays unread. -/
def peek : Reader (Option UInt8) := fun c => .ok c.rest.head? c

/-- Pass over one byte. -/
def skip : Reader Unit := fun c => .ok () c.next

/-- Refuse at the place reached. -/
def failHere (cause : Cause) : Reader α := fun c => .error ⟨cause, some c.position⟩ c

/-- Refuse because of the next byte: the place counts it as read, but it stays unread. -/
def failNext (cause : Cause) : Reader α := fun c => .error ⟨cause, some c.next.position⟩ c

/-- Refuse without a place. -/
def failWithoutPlace (m : Mismatch) : Reader α := fun c => .error ⟨.mismatch m, none⟩ c

/-- A mismatch found away from the text, as a refusal without a place. -/
def ofExcept : Except Mismatch α → Reader α
  | .ok a => fun c => .ok a c
  | .error m => failWithoutPlace m

/-- A refusal of `r` that has no place gets the one that `r` reached. -/
def located (r : Reader α) : Reader α := fun c =>
  match r c with
  | .ok a c' => .ok a c'
  | .error f c' => .error (f.locate c'.position) c'

/-- Read a body and then what closes it. What closes it is looked for also after a refusal, which
moves the place that a fault without one is given. -/
def closedBy (body : Reader α) (close : Reader Unit) : Reader α := fun c =>
  match body c with
  | .ok a c' => (match close c' with
    | .ok _ c'' => .ok a c''
    | .error f c'' => .error f c'')
  | .error f c' => (match close c' with
    | .ok _ c'' => .error f c''
    | .error _ c'' => .error f c'')

/-- The number of bytes that are still unread, which bounds every loop of a reader. -/
def remaining : Reader Nat := fun c => .ok c.rest.length c

/-- A JSON blank. -/
def isBlank (b : UInt8) : Bool := b = 0x20 || b = 0x0A || b = 0x09 || b = 0x0D

/-- The cursor behind the blanks at the front of `rest`. -/
def passBlanks : List UInt8 → Position → Cursor
  | [], p => ⟨[], p⟩
  | b :: rest, p => if isBlank b then passBlanks rest (p.advance b) else ⟨b :: rest, p⟩

/-- Pass over blanks and look at what follows. -/
def peekToken : Reader (Option UInt8) := fun c =>
  let c' := passBlanks c.rest c.position
  .ok c'.rest.head? c'

/-- Pass over the given bytes, which have to follow. -/
def passWord : List UInt8 → Reader Unit
  | [] => pure ()
  | b :: word => do
    match ← peek with
    | none => failHere .eofInValue
    | some b' => if b = b' then do skip; passWord word else failNext .expectedIdent

end Reader

end Deployment.Json
