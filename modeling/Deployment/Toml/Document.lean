import Deployment.Toml.Number

/-! # Reading TOML documents

* **`Toml.value`** — a value of any kind.
* **`Toml.parse`** — the members of the table that a text is. -/

namespace Deployment.Toml

/-- The items of a list behind those already read, in reverse. -/
def items (value : Reader Value) : Nat → List Value → Reader Value
  | 0, _ => fail
  | fuel + 1, taken => do
    blankLines
    if ← accept ']' then return .list taken.reverse
    let v ← value
    blankLines
    if ← accept ',' then items value fuel (v :: taken)
    else
      expect ']'
      return .list (v :: taken).reverse

/-- The members of a table on one line, added to those already read. -/
def members (value : Reader Value) : Nat → Table → Reader Table
  | 0, _ => fail
  | fuel + 1, t => do
    let (path, k) ← key
    expect '='
    blanks
    let v ← value
    blanks
    match t.assign path k v with
    | none => fail
    | some t =>
      if ← accept ',' then members value fuel t
      else
        expect '\x7d'
        pure t

/-- A table on one line, behind its opening brace. -/
def lineTable (value : Reader Value) : Reader Value := do
  blanks
  if ← accept '\x7d' then return .table []
  let t ← members value ((← remaining) + 1) .empty
  return .table (Item.membersToValues t.members)

/-- A value that is neither a list nor a table, and begins with `c`. -/
def plainValue (c : Char) : Reader Value :=
  if c = '"' || c = '\'' then .text <$> string
  else if c = 't' then do
    word ['t', 'r', 'u', 'e']
    pure (.bool true)
  else if c = 'f' then do
    word ['f', 'a', 'l', 's', 'e']
    pure (.bool false)
  else fun s => match moment s with
    | some r => some r
    | none => number s

/-- A value, with so many levels of nesting left. -/
def valueAt : Nat → Reader Value
  | 0 => do
    match ← peek with
    | none => fail
    | some c => if c = '[' || c = '\x7b' then fail else plainValue c
  | levels + 1 => do
    match ← peek with
    | none => fail
    | some c =>
      if c = '[' then
        expect c
        items (valueAt levels) ((← remaining) + 1) []
      else if c = '\x7b' then
        expect c
        lineTable (valueAt levels)
      else plainValue c

/-- A value. -/
def value : Reader Value := valueAt maxLevels

/-- What a document is while it is read: the table so far, and the path of the last header. -/
structure Progress where
  table : Table := .empty
  path : List String := []

/-- A header, which begins a table. -/
def header (p : Progress) : Reader Progress := do
  expect '['
  let several ← accept '['
  let (path, k) ← key
  expect ']'
  if several then expect ']'
  endOfLine
  match if several then p.table.extend path k else p.table.declare path k with
  | some t => return ⟨t, path ++ [k]⟩
  | none => fail

/-- A line that gives a key of the last header's table a value. -/
def assignment (p : Progress) : Reader Progress := do
  let (path, k) ← key
  expect '='
  blanks
  let v ← value
  endOfLine
  match Table.within .inner (Table.assign path k v) p.path p.table with
  | some t => return { p with table := t }
  | none => fail

/-- The lines of a document behind those already read. -/
def lines : Nat → Progress → Reader Table
  | 0, _ => fail
  | fuel + 1, p => do
    blanks
    match ← peek with
    | none => return p.table
    | some c =>
      if c = '#' || c = '\n' || c = '\r' then
        endOfLine
        lines fuel p
      else if c = '[' then lines fuel (← header p)
      else lines fuel (← assignment p)

/-- The members of the table that a text is; a mark of its byte order may stand in front. -/
def parse (text : String) : Option (List (String × Value)) :=
  let s := match text.toList with
    | '\ufeff' :: rest => rest
    | s => s
  (lines (s.length + 1) {} s).map fun r => Item.membersToValues r.1.members

end Deployment.Toml
