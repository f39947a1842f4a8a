import Deployment.Yaml.Lexeme

/-! # Cutting a YAML text into tokens

Indentation opens and closes blocks, and a value indicator turns what stands before it into a
key. So the tokenizer remembers the columns of the open blocks and, for each open flow
collection, where a key may have started.

* **`Tokenizer`** — what is remembered between tokens.
* **`Yaml.tokens`** — the tokens of a text. -/

namespace Deployment.Yaml

/-- A place where a key may have started: the number of the token there, and whether the
indentation demands that it is a key. -/
structure KeyStart where
  required : Bool
  token : Nat
  mark : Mark

/-- The state between two tokens. -/
structure Tokenizer where
  cursor : Cursor
  /-- The tokens so far. -/
  tokens : Array Token := #[]
  /-- The column of the innermost open block, `-1` outside of all. -/
  indent : Int := -1
  /-- The columns of the blocks around it. -/
  outer : List Int := []
  /-- A key may start here. -/
  keyAllowed : Bool := true
  /-- Where a key may have started outside of flow collections. -/
  blockKey : Option KeyStart := none
  /-- The same for each open flow collection, innermost first. -/
  flowKeys : List (Option KeyStart) := []

namespace Tokenizer

/-- A flow collection is open. -/
def inFlow (t : Tokenizer) : Bool := !t.flowKeys.isEmpty

/-- Refuse at the place reached. -/
def fail {α : Type} (t : Tokenizer) (reason : String) : Except SyntaxFault α :=
  .error ⟨reason, t.cursor.mark⟩

/-- Where a key may have started in the innermost collection. -/
def possibleKey (t : Tokenizer) : Option KeyStart :=
  match t.flowKeys with
  | [] => t.blockKey
  | k :: _ => k

/-- Remember or forget where a key may have started. -/
def setKey (t : Tokenizer) (k : Option KeyStart) : Tokenizer :=
  match t.flowKeys with
  | [] => { t with blockKey := k }
  | _ :: rest => { t with flowKeys := k :: rest }

/-- Add a token. -/
def push (t : Tokenizer) (kind : TokenKind) (start stop : Mark) : Tokenizer :=
  { t with tokens := t.tokens.push ⟨kind, start, stop⟩ }

/-- Add a token before token number `n`. -/
def pushAt (t : Tokenizer) (n : Nat) (kind : TokenKind) (mark : Mark) : Tokenizer :=
  { t with tokens := (t.tokens.extract 0 n).push ⟨kind, mark, mark⟩ ++ t.tokens.extract n }

/-- Forget where a key may have started; one that was required is missing its colon. -/
def dropKey (t : Tokenizer) : Except SyntaxFault Tokenizer :=
  if (t.possibleKey.map (·.required)).getD false then t.fail "could not find expected ':'"
  else .ok (t.setKey none)

/-- A key may start at the next token. -/
def saveKey (t : Tokenizer) : Except SyntaxFault Tokenizer := do
  if t.keyAllowed then
    let required := !t.inFlow && t.indent = (t.cursor.mark.column : Int)
    return (← t.dropKey).setKey (some ⟨required, t.tokens.size, t.cursor.mark⟩)
  else return t

/-- A key has to end on its line and within 1024 characters. -/
def isStale (t : Tokenizer) (k : KeyStart) : Bool :=
  k.mark.line < t.cursor.mark.line || k.mark.index + 1024 < t.cursor.mark.index

/-- Forget the places of keys that can no longer end; one that was required is missing its
colon. -/
def dropStaleKeys (t : Tokenizer) : Except SyntaxFault Tokenizer := do
  let check (k : Option KeyStart) : Except SyntaxFault (Option KeyStart) :=
    match k with
    | none => .ok none
    | some s =>
      if !t.isStale s then .ok k
      else if s.required then t.fail "could not find expected ':'"
      else .ok none
  let blockKey ← check t.blockKey
  let flowKeys ← t.flowKeys.mapM check
  return { t with blockKey := blockKey, flowKeys := flowKeys }

/-- Open a block at a column that is further in than the innermost block; its token goes before
token number `n`, if given. -/
def openBlock (t : Tokenizer) (column : Nat) (n : Option Nat) (kind : TokenKind) (mark : Mark) :
    Tokenizer :=
  if t.inFlow || (column : Int) ≤ t.indent then t
  else
    let t := { t with indent := column, outer := t.indent :: t.outer }
    match n with
    | none => t.push kind mark mark
    | some n => t.pushAt n kind mark

/-- Close the blocks that are further in than a column. -/
def closeBlocksFrom : List Int → Int → Tokenizer → Tokenizer
  | outer, column, t =>
    if column < t.indent then
      match outer with
      | [] => t
      | i :: outer =>
        let m := t.cursor.mark
        closeBlocksFrom outer column { t.push .blockEnd m m with indent := i, outer := outer }
    else t

/-- Close the blocks that are further in than a column; inside flow collections there are
none. -/
def closeBlocks (t : Tokenizer) (column : Int) : Tokenizer :=
  if t.inFlow then t else closeBlocksFrom t.outer column t

/-- Move the cursor to the next token, over blanks, comments and line breaks. Tabs are no
indentation. -/
def passGap : Nat → Tokenizer → Tokenizer
  | 0, t => t
  | fuel + 1, t =>
    let c := if t.cursor.mark.index = 0 && t.cursor.sees '\uFEFF' then t.cursor.skip else t.cursor
    let tabs := t.inFlow || !t.keyAllowed
    let c := ((c.span fun x => x = ' ' || (tabs && x = '\t')).2).skipComment
    if c.onBreak then
      passGap fuel { t with cursor := c.skipLine, keyAllowed := t.keyAllowed || !t.inFlow }
    else { t with cursor := c }

/-- Add a token of `n` characters. -/
def indicator (t : Tokenizer) (kind : TokenKind) (n : Nat) : Tokenizer :=
  let c := t.cursor.skipN n
  { t.push kind t.cursor.mark c.mark with cursor := c }

/-- The start of a flow collection, which may itself be a key. -/
def flowStart (t : Tokenizer) (kind : TokenKind) : Except SyntaxFault Tokenizer := do
  let t ← t.saveKey
  return { t with flowKeys := none :: t.flowKeys, keyAllowed := true }.indicator kind 1

/-- The end of a flow collection. -/
def flowEnd (t : Tokenizer) (kind : TokenKind) : Except SyntaxFault Tokenizer := do
  let t ← t.dropKey
  return { t with flowKeys := t.flowKeys.drop 1, keyAllowed := false }.indicator kind 1

/-- The indicator `-`. -/
def blockEntry (t : Tokenizer) : Except SyntaxFault Tokenizer := do
  if !t.inFlow && !t.keyAllowed then
    t.fail "block sequence entries are not allowed in this context"
  else
    let m := t.cursor.mark
    let t ← (t.openBlock m.column none .blockSequenceStart m).dropKey
    return { t with keyAllowed := true }.indicator .blockEntry 1

/-- The indicator `?`. -/
def keyIndicator (t : Tokenizer) : Except SyntaxFault Tokenizer := do
  if !t.inFlow && !t.keyAllowed then t.fail "mapping keys are not allowed in this context"
  else
    let m := t.cursor.mark
    let t ← (t.openBlock m.column none .blockMappingStart m).dropKey
    return { t with keyAllowed := !t.inFlow }.indicator .key 1

/-- The indicator `:`. What may be a key before it becomes one. -/
def valueIndicator (t : Tokenizer) : Except SyntaxFault Tokenizer := do
  match t.possibleKey with
  | some k =>
    let t := (t.pushAt k.token .key k.mark).openBlock k.mark.column (some k.token)
      .blockMappingStart k.mark
    return { t.setKey none with keyAllowed := false }.indicator .value 1
  | none =>
    if !t.inFlow && !t.keyAllowed then t.fail "mapping values are not allowed in this context"
    else
      let m := t.cursor.mark
      let t := t.openBlock m.column none .blockMappingStart m
      return { t with keyAllowed := !t.inFlow }.indicator .value 1

/-- Add a token whose kind and end a lexeme tells. -/
def lexeme (t : Tokenizer) (l : Lexeme TokenKind) : Except SyntaxFault Tokenizer := do
  let (kind, c) ← l t.cursor
  return { t.push kind t.cursor.mark c.mark with cursor := c }

/-- The lexeme of a scalar token. -/
def scalarToken (style : Style) (l : Lexeme String) : Lexeme TokenKind := fun c => do
  let (s, c') ← l c
  return (.scalar style s, c')

/-- A plain scalar. -/
def plain (t : Tokenizer) : Except SyntaxFault Tokenizer := do
  let t ← t.saveKey
  let ((s, stop, broken), c) ← Lexeme.plainScalar t.inFlow t.indent t.cursor
  return { t.push (.scalar .plain s) t.cursor.mark stop with cursor := c, keyAllowed := broken }

/-- The characters that cannot start a plain scalar on their own. -/
def isIndicator (c : Char) : Bool :=
  ['-', '?', ':', ',', '[', ']', '{', '}', '#', '&', '*', '!', '|', '>', '\'', '"', '%', '@',
    '`'].contains c

/-- The end of the text. -/
def finish (t : Tokenizer) : Except SyntaxFault Tokenizer := do
  let m := t.cursor.mark
  let m := if m.column = 0 then m else ⟨m.index, m.line + 1, 0⟩
  let t ← ({ t with cursor := ⟨[], m⟩ }.closeBlocks (-1)).dropKey
  return { t with keyAllowed := false }.push .streamEnd m m

/-- The token that starts with `x`, which is not the end of the text. -/
def tokenAt (t : Tokenizer) (x : Char) : Except SyntaxFault Tokenizer := do
  let c := t.cursor
  let gap := c.gapAt 1
  let atStart := c.mark.column = 0
  if atStart && x = '%' then
    let t ← (t.closeBlocks (-1)).dropKey
    { t with keyAllowed := false }.lexeme Lexeme.directive
  else if c.onDocumentMark then
    let t ← (t.closeBlocks (-1)).dropKey
    return { t with keyAllowed := false }.indicator
      (if x = '-' then .documentStart else .documentEnd) 3
  else if x = '[' then t.flowStart .flowSequenceStart
  else if x = '{' then t.flowStart .flowMappingStart
  else if x = ']' then t.flowEnd .flowSequenceEnd
  else if x = '}' then t.flowEnd .flowMappingEnd
  else if x = ',' then
    let t ← t.dropKey
    return { t with keyAllowed := true }.indicator .flowEntry 1
  else if x = '-' && gap then t.blockEntry
  else if x = '?' && (t.inFlow || gap) then t.keyIndicator
  else if x = ':' && (t.inFlow || gap) then t.valueIndicator
  else if x = '*' then
    let t ← t.saveKey
    { t with keyAllowed := false }.lexeme fun c => do
      let (name, c') ← Lexeme.anchor c
      return (.alias name, c')
  else if x = '&' then
    let t ← t.saveKey
    { t with keyAllowed := false }.lexeme fun c => do
      let (name, c') ← Lexeme.anchor c
      return (.anchor name, c')
  else if x = '!' then
    let t ← t.saveKey
    { t with keyAllowed := false }.lexeme (Lexeme.tag t.inFlow)
  else if (x = '|' || x = '>') && !t.inFlow then
    let t ← t.dropKey
    { t with keyAllowed := true }.lexeme
      (scalarToken .block (Lexeme.blockScalar (x = '|') t.indent))
  else if x = '\'' || x = '"' then
    let t ← t.saveKey
    { t with keyAllowed := false }.lexeme
      (scalarToken .quoted (Lexeme.quotedScalar (x = '"')))
  else if (!isIndicator x && !isBlank x) || (x = '-' && !(c.peekAt 1).any isBlank) ||
      (!t.inFlow && (x = '?' || x = ':') && !gap) then
    t.plain
  else t.fail "found character that cannot start any token"

/-- The tokens up to the end of the text. -/
def run : Nat → Tokenizer → Except SyntaxFault (Array Token)
  | 0, t => t.fail "found unexpected end of stream"
  | fuel + 1, t => do
    let t := t.passGap (t.cursor.rest.length + 1)
    let t ← t.dropStaleKeys
    let t := t.closeBlocks t.cursor.mark.column
    match t.cursor.peek with
    | none => return (← t.finish).tokens
    | some x => run fuel (← t.tokenAt x)

end Tokenizer

/-- The first character that a YAML text may not hold, as a fault. -/
def forbidden? : Cursor → List Char → Option SyntaxFault
  | _, [] => none
  | c, x :: rest =>
    if isAllowed x then
      forbidden? (if isBreak x then ⟨rest, c.mark.index + 1, c.mark.line + 1, 0⟩ else c.skip) rest
    else some ⟨"control characters are not allowed", c.mark⟩

/-- The tokens of a text. -/
def tokens (text : List Char) : Except SyntaxFault (Array Token) :=
  match forbidden? ⟨text, .start⟩ text with
  | some f => .error f
  | none => Tokenizer.run (text.length + 2) { cursor := ⟨text, .start⟩ }

end Deployment.Yaml
