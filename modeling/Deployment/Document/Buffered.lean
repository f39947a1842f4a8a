import Deployment.Document.Mismatch

/-! # Parts of documents that are set aside

A value whose shape hangs on a tag has to be kept until the tag is known. Such a part is held as
a `Buffered` tree, without places in the text, and read from there.

* **`Buffered`** — a part of a document.
* **`Buffered.text`**, **`.optional`**, **`.list`**, **`.variant`**, **`.entries`** — what may be
  read from it. -/

namespace Deployment

/-- A part of a document: keys of tables need not be texts. -/
inductive Buffered where
  | null
  | bool (b : Bool)
  | natural (n : Nat)
  | negative (n : Int)
  | float (f : Float)
  | text (s : String)
  | list (items : List Buffered)
  | table (entries : List (Buffered × Buffered))
  deriving Inhabited

namespace Buffered

/-- How a refusal names the part. -/
def found : Buffered → Found
  | .null => .null
  | .bool b => .bool b
  | .natural n => .integer n
  | .negative n => .integer n
  | .float f => .float f
  | .text s => .text s
  | .list _ => .list
  | .table _ => .table

mutual

/-- How deep lists and tables are nested. -/
def depth : Buffered → Nat
  | .list items => depthItems items + 1
  | .table entries => depthEntries entries + 1
  | _ => 0

/-- The depth of the deepest item. -/
def depthItems : List Buffered → Nat
  | [] => 0
  | v :: rest => max (depth v) (depthItems rest)

/-- The depth of the deepest key or value. -/
def depthEntries : List (Buffered × Buffered) → Nat
  | [] => 0
  | (k, v) :: rest => max (max (depth k) (depth v)) (depthEntries rest)

end

/-- Refuse a part for its kind. -/
def refuse {α : Type} (v : Buffered) (expected : String) : Except Mismatch α :=
  .error (.kind v.found expected)

/-- A text. -/
def readText : Buffered → Except Mismatch String
  | .text s => .ok s
  | v => v.refuse "a string"

/-- A value that may be left out as null. -/
def readOptional {α : Type} (read : Buffered → Except Mismatch α) :
    Buffered → Except Mismatch (Option α)
  | .null => .ok none
  | v => some <$> read v

/-- A list of values. -/
def readList {α : Type} (read : Buffered → Except Mismatch α) :
    Buffered → Except Mismatch (List α)
  | .list items => items.mapM read
  | v => v.refuse "a sequence"

/-- The name that a key or a tag chooses among known names: by its text or by its number.
`none` stands for a name that is not known. -/
def chosenField (names : List String) : Buffered → Except Mismatch (Option String)
  | .text s => .ok (if names.contains s then some s else none)
  | .natural n => .ok names[n]?
  | v => v.refuse "field identifier"

/-- The variant that a part names. -/
def chosenVariant (names : List String) : Buffered → Except Mismatch String
  | .text s => if names.contains s then .ok s else .error (.unknownVariant s names)
  | .natural n => match names[n]? with
    | some s => .ok s
    | none => .error (.value (.integer n) ("variant index 0 <= i < " ++ toString names.length))
  | v => v.refuse "variant identifier"

/-- One of a set of names: the name alone, or a table with the name over nothing. -/
def readChoice (names : List String) : Buffered → Except Mismatch String
  | .text s => chosenVariant names (.text s)
  | .table [(k, v)] => do
    let name ← chosenVariant names k
    match v with
    | .null | .table [] => .ok name
    | v => v.refuse "unit"
  | .table _ => .error (.value .table "map with a single key")
  | v => v.refuse "string or map"

/-- The tag of a tagged value and the part that holds the rest: the entries besides the tag, or
the items after it. -/
def readTagged (expected tag : String) (names : List String) :
    Buffered → Except Mismatch (String × Buffered)
  | .list [] => .error (.missingField tag)
  | .list (t :: rest) => do return (← chosenVariant names t, .list rest)
  | .table entries => do
    let step (state : Option String × List (Buffered × Buffered)) (e : Buffered × Buffered) :
        Except Mismatch (Option String × List (Buffered × Buffered)) :=
      match e.1 with
      | .text k =>
        if k = tag then
          if state.1.isSome then .error (.duplicateField tag)
          else do return (some (← chosenVariant names e.2), state.2)
        else .ok (state.1, state.2 ++ [e])
      | _ => .ok (state.1, state.2 ++ [e])
    match ← entries.foldlM step (none, []) with
    | (some name, rest) => .ok (name, .table rest)
    | (none, _) => .error (.missingField tag)
  | v => v.refuse expected

end Buffered

end Deployment
