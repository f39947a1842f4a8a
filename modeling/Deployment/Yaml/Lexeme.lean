import Deployment.Text.Utf8
import Deployment.Yaml.Token

/-! # Lexemes of YAML texts

The parts of a YAML text that can be cut out without looking around: directives, anchors, tags
and the three ways to write a scalar.

* **`Yaml.Lexeme`** — a reader that takes one lexeme off the text.
* **`Lexeme.directive`**, **`.anchor`**, **`.tag`** — the small ones.
* **`Lexeme.blockScalar`**, **`.quotedScalar`**, **`.plainScalar`** — the scalars. -/

namespace Deployment.Yaml

/-- Take a lexeme off the text, or tell what is wrong with it. -/
abbrev Lexeme (α : Type) := Cursor → Except SyntaxFault (α × Cursor)

namespace Lexeme

/-- Refuse at the place reached. -/
def fail {α : Type} (c : Cursor) (reason : String) : Except SyntaxFault α :=
  .error ⟨reason, c.mark⟩

/-- One of the two numbers of a version: at most nine digits. -/
def versionNumber : Lexeme Nat := fun c => do
  let (digits, c') := c.span isDigit
  if digits.isEmpty then fail c' "did not find expected version number"
  else if 9 < digits.length then fail c' "found extremely long version number"
  else return (digits.foldl (fun n d => n * 10 + (d.toNat - 48)) 0, c')

/-- A tag handle: `!`, `!!` or `!name!`. A directive admits no other `!…`. -/
def tagHandle (inDirective : Bool) : Lexeme (List Char) := fun c => do
  if !c.sees '!' then fail c "did not find expected '!'"
  else
    let (name, c') := c.skip.span isNameChar
    if c'.sees '!' then return ('!' :: name ++ ['!'], c'.skip)
    else if inDirective && !name.isEmpty then fail c' "did not find expected '!'"
    else return ('!' :: name, c')

/-- A character of a tag; the last three only inside `<…>` and in directives. -/
def isUriChar (verbatim : Bool) (c : Char) : Bool :=
  isNameChar c ||
    [';', '/', '?', ':', '@', '&', '=', '+', '$', '.', '%', '!', '~', '*', '\'', '(', ')'].contains c ||
    (verbatim && [',', '[', ']'].contains c)

/-- The value of a hexadecimal digit. -/
def hexValue (c : Char) : Option Nat :=
  if '0' ≤ c && c ≤ '9' then some (c.toNat - 48)
  else if 'a' ≤ c && c ≤ 'f' then some (c.toNat - 87)
  else if 'A' ≤ c && c ≤ 'F' then some (c.toNat - 55)
  else none

/-- The value of hexadecimal digits. -/
def hexNumber (digits : List Char) : Option Nat :=
  digits.foldlM (fun n d => do return n * 16 + (← hexValue d)) 0

/-- The length of a UTF-8 sequence by its first byte, zero if none starts so. -/
def sequenceLength (n : Nat) : Nat :=
  if n < 0x80 then 1
  else if 0xC0 ≤ n && n < 0xE0 then 2
  else if 0xE0 ≤ n && n < 0xF0 then 3
  else if 0xF0 ≤ n && n < 0xF8 then 4
  else 0

/-- `n` bytes written as `%XX`. -/
def uriBytes : Nat → Lexeme (List UInt8)
  | 0, c => .ok ([], c)
  | n + 1, c => do
    match c.sees '%', hexNumber ((c.rest.drop 1).take 2) with
    | true, some b =>
      if (c.rest.drop 1).length < 2 then fail c "did not find URI escaped octet"
      else
        let (more, c') ← uriBytes n (c.skipN 3)
        return (UInt8.ofNat b :: more, c')
    | _, _ => fail c "did not find URI escaped octet"

/-- A character written as `%XX` bytes. -/
def uriEscape : Lexeme (List Char) := fun c => do
  let (first, _) ← uriBytes 1 c
  let n := sequenceLength ((first.headD 0).toNat)
  if n = 0 then fail c "found an incorrect leading UTF-8 octet"
  else
    let (bytes, c') ← uriBytes n c
    match Utf8.decode? bytes with
    | some s => return (s.toList, c')
    | none => fail c "found an incorrect trailing UTF-8 octet"

/-- The characters of a tag, in reverse behind those already taken. -/
def uriChars (verbatim : Bool) : Nat → List Char → Lexeme (List Char)
  | 0, taken, c => .ok (taken.reverse, c)
  | fuel + 1, taken, c => do
    match c.peek with
    | some '%' => do
      let (chars, c') ← uriEscape c
      uriChars verbatim fuel (chars.reverse ++ taken) c'
    | some x =>
      if isUriChar verbatim x then uriChars verbatim fuel (x :: taken) c.skip
      else return (taken.reverse, c)
    | none => return (taken.reverse, c)

/-- The rest of a tag behind what was read of it as a handle. -/
def tagUri (verbatim : Bool) (head : List Char) : Lexeme String := fun c => do
  let (chars, c') ← uriChars verbatim (c.rest.length + 1) [] c
  if head.isEmpty && chars.isEmpty then fail c' "did not find expected tag URI"
  else return (String.ofList (head.drop 1 ++ chars), c')

/-- A directive with the line that it stands on. -/
def directive : Lexeme TokenKind := fun c => do
  let (name, c') := c.skip.span isNameChar
  if name.isEmpty then fail c' "could not find expected directive name"
  else if !c'.gapAt 0 then fail c' "found unexpected non-alphabetical character"
  else
    let (kind, c') ← (
      if name = "YAML".toList then do
        let (major, c') ← versionNumber c'.skipBlanks
        if !c'.sees '.' then fail c' "did not find expected digit or '.' character"
        else
          let (minor, c') ← versionNumber c'.skip
          return (TokenKind.versionDirective major minor, c')
      else if name = "TAG".toList then do
        let (handle, c') ← tagHandle true c'.skipBlanks
        if !c'.onBlank then fail c' "did not find expected whitespace"
        else
          let (start, c') ← tagUri true [] c'.skipBlanks
          if !c'.gapAt 0 then fail c' "did not find expected whitespace or line break"
          else return (TokenKind.tagDirective (String.ofList handle) start, c')
      else fail c "found unknown directive name")
    let c' := c'.skipBlanks.skipComment
    if !c'.lineEnds then fail c' "did not find expected comment or line break"
    else return (kind, c'.skipLine)

/-- The name behind `&` or `*`. -/
def anchor : Lexeme String := fun c => do
  let (name, c') := c.skip.span isNameChar
  let ends := c'.gapAt 0 ||
    ((c'.peek.map fun x => ['?', ':', ',', ']', '}', '%', '@', '`'].contains x).getD false)
  if name.isEmpty || !ends then
    fail c "did not find expected alphabetic or numeric character"
  else return (String.ofList name, c')

/-- A tag as its handle and its suffix; the handle of `!<…>` and of `!` alone is empty. -/
def tag (inFlow : Bool) : Lexeme TokenKind := fun c => do
  let (kind, c') ← (
    -- A verbatim tag `!<…>` is taken as it stands.
    if c.peekAt 1 = some '<' then do
      let (suffix, c') ← tagUri true [] (c.skipN 2)
      if !c'.sees '>' then fail c' "did not find the expected '>'"
      else return (TokenKind.tag "" suffix, c'.skip)
    else do
      let (handle, c') ← tagHandle false c
      -- What was read as a handle is one only if a second `!` closes it, else it belongs to the
      -- suffix.
      if 1 < handle.length && handle.getLast? = some '!' then do
        let (suffix, c') ← tagUri false [] c'
        return (TokenKind.tag (String.ofList handle) suffix, c')
      else do
        let (suffix, c') ← tagUri false handle c'
        if suffix.isEmpty then return (TokenKind.tag "" "!", c')
        else return (TokenKind.tag "!" suffix, c'))
  if c'.gapAt 0 || (inFlow && c'.sees ',') then return (kind, c')
  else fail c' "did not find expected whitespace or line break"

/-! ## Block scalars -/

/-- The empty lines before a line of a block scalar: the line breaks, in reverse, the cursor
behind the indentation, and the greatest column met. With `indent = 0` any indentation counts. -/
def blockBreaks (indent : Nat) : Nat → List Char → Nat → Lexeme (List Char × Nat)
  | 0, breaks, deepest, c => .ok ((breaks, deepest), c)
  | fuel + 1, breaks, deepest, c => do
    let room := if indent = 0 then c.rest.length else indent - c.mark.column
    let (_, c') := Cursor.spanFrom (· = ' ') room c []
    let deepest := max deepest c'.mark.column
    if (indent = 0 || c'.mark.column < indent) && c'.sees '\t' then
      fail c' "found a tab character where an indentation space is expected"
    else if c'.onBreak then
      blockBreaks indent fuel (c'.lineBreak.reverse ++ breaks) deepest c'.skipLine
    else return ((breaks, deepest), c')

/-- The indentation of a block scalar: given, or that of its first line that is not empty. -/
def blockIndent (parent : Int) (indent deepest : Nat) : Nat :=
  if indent ≠ 0 then indent else max (max deepest (parent + 1).toNat) 1

/-- The lines of a block scalar. `out` is the text so far, in reverse; `lead` the break behind
the last line and `more` the breaks of the empty lines after it, in reverse. -/
def blockLines (literal : Bool) (indent : Nat) :
    Nat → List Char → List Char → List Char → Bool → Lexeme (List Char × List Char × List Char)
  | 0, out, lead, more, _, c => .ok ((out, lead, more), c)
  | fuel + 1, out, lead, more, wasBlank, c => do
    if c.mark.column ≠ indent || c.peek.isNone then return ((out, lead, more), c)
    else
      let blank := c.onBlank
      let out :=
        -- Folded, a single break between two lines that are not indented further becomes a space.
        if !literal && lead.head? = some '\n' && !wasBlank && !blank then
          if more.isEmpty then ' ' :: out else more ++ out
        else more ++ lead ++ out
      let (line, c') := c.span fun x => !isBreak x
      let out := line.reverse ++ out
      let lead := c'.lineBreak
      let ((more, _), c') ← blockBreaks indent (c'.rest.length + 1) [] 0 c'.skipLine
      blockLines literal indent fuel out lead more blank c'

/-- The indicators behind `|` or `>`: whether trailing line breaks are kept (`some true`) or
dropped (`some false`), and the indentation. -/
def blockHeader : Lexeme (Option Bool × Nat) := fun c => do
  let chomping (c : Cursor) : Option Bool × Cursor :=
    if c.sees '+' then (some true, c.skip)
    else if c.sees '-' then (some false, c.skip)
    else (none, c)
  let digit (c : Cursor) : Except SyntaxFault (Nat × Cursor) :=
    match c.peek with
    | some x =>
      if !isDigit x then .ok (0, c)
      else if x = '0' then fail c "found an indentation indicator equal to 0"
      else .ok (x.toNat - 48, c.skip)
    | none => .ok (0, c)
  -- The two indicators may come in either order.
  match chomping c with
  | (some keep, c') => do
    let (n, c') ← digit c'
    return ((some keep, n), c')
  | (none, c') => do
    let (n, c') ← digit c'
    if n = 0 then return ((none, 0), c')
    else
      let (keep, c') := chomping c'
      return ((keep, n), c')

/-- A block scalar inside a block that is indented by `parent`. -/
def blockScalar (literal : Bool) (parent : Int) : Lexeme String := fun c => do
  let ((keep, increment), c') ← blockHeader c.skip
  let c' := c'.skipBlanks.skipComment
  if !c'.lineEnds then fail c' "did not find expected comment or line break"
  else
    let c' := c'.skipLine
    let indent := if increment = 0 then 0
      else if 0 ≤ parent then parent.toNat + increment else increment
    let ((more, deepest), c') ← blockBreaks indent (c'.rest.length + 1) [] 0 c'
    -- Without an indicator the first lines tell the indentation.
    let indent := blockIndent parent indent deepest
    let ((out, lead, more), c') ←
      blockLines literal indent (c'.rest.length + 1) [] [] more false c'
    let out := if keep = some false then out else lead ++ out
    let out := if keep = some true then more ++ out else out
    return (String.ofList out.reverse, c')

/-! ## Flow scalars -/

/-- Blanks and line breaks inside a flow scalar. -/
structure Gap where
  /-- Blanks of the first line, in reverse. -/
  blanks : List Char := []
  /-- The first line break. -/
  lead : List Char := []
  /-- The line breaks after it, in reverse. -/
  more : List Char := []
  /-- A line break was met. -/
  broken : Bool := false

/-- What a gap leaves in the text, in reverse: a single line break becomes a space. -/
def Gap.folded (g : Gap) : List Char :=
  if g.broken then
    if g.lead.head? = some '\n' then (if g.more.isEmpty then [' '] else g.more)
    else g.more ++ g.lead
  else g.blanks

/-- Take a gap; inside a plain scalar a tab may not stand in the indentation `indent`. -/
def gap (indent : Option Int) : Nat → Gap → Lexeme Gap
  | 0, g, c => .ok (g, c)
  | fuel + 1, g, c => do
    match c.peek with
    | none => return (g, c)
    | some x =>
      -- Blanks behind a break are indentation, which a tab must not be part of.
      if isBlank x then
        let abused := match indent with
          | some n => g.broken && (c.mark.column : Int) < n && x = '\t'
          | none => false
        if abused then fail c "found a tab character that violates indentation"
        else gap indent fuel (if g.broken then g else { g with blanks := x :: g.blanks }) c.skip
      else if isBreak x then
        let b := c.lineBreak
        gap indent fuel
          (if g.broken then { g with more := b.reverse ++ g.more }
           else { g with blanks := [], lead := b, broken := true })
          c.skipLine
      else return (g, c)

/-- What an escape of a double-quoted scalar stands for: characters, or the number of
hexadecimal digits that follow. -/
def escapeOf (x : Char) : Option (List Char ⊕ Nat) :=
  match x with
  | '0' => some (.inl ['\x00'])
  | 'a' => some (.inl ['\x07'])
  | 'b' => some (.inl ['\x08'])
  | 't' => some (.inl ['\t'])
  | '\t' => some (.inl ['\t'])
  | 'n' => some (.inl ['\n'])
  | 'v' => some (.inl ['\x0b'])
  | 'f' => some (.inl ['\x0c'])
  | 'r' => some (.inl ['\r'])
  | 'e' => some (.inl ['\x1b'])
  | ' ' => some (.inl [' '])
  | '"' => some (.inl ['"'])
  | '/' => some (.inl ['/'])
  | '\\' => some (.inl ['\\'])
  | 'N' => some (.inl ['\u0085'])
  | '_' => some (.inl ['\u00a0'])
  | 'L' => some (.inl ['\u2028'])
  | 'P' => some (.inl ['\u2029'])
  | 'x' => some (.inr 2)
  | 'u' => some (.inr 4)
  | 'U' => some (.inr 8)
  | _ => none

/-- The characters of a quoted scalar up to a gap, an escaped line break (`true`) or the closing
quote, in reverse before those already taken. -/
def quotedChars (double : Bool) : Nat → List Char → Lexeme (List Char × Bool)
  | 0, out, c => .ok ((out, false), c)
  | fuel + 1, out, c => do
    match c.peek with
    | none => return ((out, false), c)
    | some x =>
      if isBlank x || isBreak x then return ((out, false), c)
      else if !double && x = '\'' && c.peekAt 1 = some '\'' then
        quotedChars double fuel ('\'' :: out) (c.skipN 2)
      else if x = (if double then '"' else '\'') then return ((out, false), c)
      else if double && x = '\\' then
        match c.peekAt 1 with
        | none => fail c "found unknown escape character"
        | some y =>
          -- An escaped break joins the lines, and what is blank at the start of the next is dropped
          -- by the caller.
          if isBreak y then return ((out, true), c.skip.skipLine)
          else match escapeOf y with
            | none => fail c "found unknown escape character"
            | some (.inl chars) => quotedChars double fuel (chars.reverse ++ out) (c.skipN 2)
            | some (.inr n) =>
              let digits := (c.rest.drop 2).take n
              match hexNumber digits with
              | none => fail c "did not find expected hexdecimal number"
              | some v =>
                if digits.length < n then fail c "did not find expected hexdecimal number"
                else if (0xD800 ≤ v && v ≤ 0xDFFF) || 0x10FFFF < v then
                  fail c "found invalid Unicode character escape code"
                else quotedChars double fuel (Char.ofNat v :: out) (c.skipN (n + 2))
      else quotedChars double fuel (x :: out) c.skip

/-- The inside of a quoted scalar and its closing quote, in reverse behind `out`. -/
def quotedBody (double : Bool) : Nat → List Char → Lexeme (List Char)
  | 0, _, c => fail c "found unexpected end of stream"
  | fuel + 1, out, c => do
    if c.onDocumentMark then fail c "found unexpected document indicator"
    else if c.peek.isNone then fail c "found unexpected end of stream"
    else
      let ((out, broken), c') ← quotedChars double (c.rest.length + 1) out c
      if c'.sees (if double then '"' else '\'') then return (out, c'.skip)
      else
        let start : Gap := { broken := broken }
        let (g, c') ← gap none (c'.rest.length + 1) start c'
        quotedBody double fuel (g.folded ++ out) c'

/-- A scalar in single or double quotes. -/
def quotedScalar (double : Bool) : Lexeme String := fun c => do
  let (out, c') ← quotedBody double (c.rest.length + 1) [] c.skip
  return (String.ofList out.reverse, c')

/-- The indicators of flow collections. -/
def isFlowIndicator (c : Char) : Bool := [',', '[', ']', '{', '}'].contains c

/-- The characters of a plain scalar up to a gap or what ends it, in reverse behind `out`, with
the place behind the last one. -/
def plainChars (inFlow : Bool) : Nat → List Char → Lexeme (List Char)
  | 0, out, c => .ok (out, c)
  | fuel + 1, out, c => do
    match c.peek with
    | none => return (out, c)
    | some x =>
      if isBlank x || isBreak x then return (out, c)
      else if inFlow && x = ':' &&
          ((c.peekAt 1).map fun y => y = '?' || isFlowIndicator y).getD false then
        fail c "found unexpected ':'"
      else if (x = ':' && c.gapAt 1) || (inFlow && isFlowIndicator x) then return (out, c)
      else plainChars inFlow fuel (x :: out) c.skip

/-- The lines of a plain scalar: its text in reverse, the end of the text, and whether the
scalar ended behind a line break. -/
def plainLines (inFlow : Bool) (indent : Int) :
    Nat → List Char → Mark → Gap → Lexeme (List Char × Mark × Bool)
  | 0, out, stop, g, c => .ok ((out, stop, g.broken), c)
  | fuel + 1, out, stop, g, c => do
    if c.onDocumentMark || c.sees '#' then return ((out, stop, g.broken), c)
    else
      let (chars, c') ← plainChars inFlow (c.rest.length + 1) [] c
      let (out, stop, g) :=
        if chars.isEmpty then (out, stop, g) else (chars ++ (g.folded ++ out), c'.mark, {})
      if !(c'.onBlank || c'.onBreak) then return ((out, stop, g.broken), c')
      else
        let (g, c') ← gap (some indent) (c'.rest.length + 1) g c'
        -- A line that is indented less ends the scalar, in block context only.
        if !inFlow && (c'.mark.column : Int) < indent then return ((out, stop, g.broken), c')
        else plainLines inFlow indent fuel out stop g c'

/-- A plain scalar inside a block that is indented by `parent`, the place where its text ends,
and whether a line break follows it. -/
def plainScalar (inFlow : Bool) (parent : Int) : Lexeme (String × Mark × Bool) := fun c => do
  let ((out, stop, broken), c') ←
    plainLines inFlow (parent + 1) (c.rest.length + 1) [] c.mark {} c
  return ((String.ofList out.reverse, stop, broken), c')

end Lexeme

end Deployment.Yaml
