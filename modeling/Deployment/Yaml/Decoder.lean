import Deployment.Document.Slot
import Deployment.Yaml.Node
import Deployment.Yaml.Scalar

/-! # Reading values from YAML documents

One decoder for each kind of value that a type may ask for. A refusal tells the path of keys and
indices that leads to the value and where the value starts. Sequences and mappings may be nested
`Decoder.maxLevels` deep, and aliases may be followed only so often.

* **`Yaml.Fault`** — a refusal.
* **`Decoder.text`**, **`.optional`**, **`.listOf`**, **`.tableOf`**, **`.record`**,
  **`.choice`** — the decoders, each for a node and its path.
* **`Decoder.tagged`**, **`.buffered`** — parts that are set aside.
* **`Yaml.decode`** — a whole text. -/

namespace Deployment.Yaml

/-- Why a document is refused. -/
inductive Cause where
  | mismatch (m : Mismatch)
  | nestedTooDeep (mark : Mark)
  | repeatedTooOften
  | endOfStream

/-- A refusal; a mismatch has no place until a decoder gives it one. -/
structure Fault where
  cause : Cause
  place : Option (String × Mark)

/-- How YAML documents word the absence of a value and lay out fractions. -/
def wording : Wording := ⟨"unit value", ⟨none, false⟩⟩

/-- The path of the root. -/
def rootPath : String := "."

/-- The path of the value under a key. -/
def pathOfKey (path key : String) : String :=
  if path = rootPath then key else path ++ "." ++ key

/-- The path of an item. -/
def pathOfItem (path : String) (i : Nat) : String := path ++ "[" ++ toString i ++ "]"

/-- The text of a refusal without its place in the text. -/
def Fault.reason (f : Fault) : String :=
  match f.cause with
  | .mismatch m => match f.place with
    | some (path, _) =>
      if path = rootPath then m.message wording else path ++ ": " ++ m.message wording
    | none => m.message wording
  | .nestedTooDeep _ => "recursion limit exceeded"
  | .repeatedTooOften => "repetition limit exceeded"
  | .endOfStream => "EOF while parsing a value"

/-- The place in the text that a refusal tells; the very start of a text is not told. -/
def Fault.mark? (f : Fault) : Option Mark :=
  let mark : Option Mark := match f.cause with
    | .mismatch _ => f.place.map fun p => p.2
    | .nestedTooDeep m => some m
    | _ => none
  mark.filter fun m => m.line ≠ 0 || m.column ≠ 0

/-- The text of a refusal. -/
def Fault.message (f : Fault) : String :=
  match f.mark? with
  | none => f.reason
  | some m =>
    f.reason ++ " at line " ++ toString (m.line + 1) ++ " column " ++ toString (m.column + 1)

/-- Decoding inside a document: how often an alias was followed is counted. -/
abbrev Decoder := ReaderT Document (StateT Nat (Except Fault))

namespace Decoder

variable {α σ : Type}

/-- How deep sequences and mappings may be nested. -/
def maxLevels : Nat := 128

/-- Refuse without a place. -/
def refuse (m : Mismatch) : Decoder α := throw ⟨.mismatch m, none⟩

/-- A mismatch found away from the document. -/
def ofExcept : Except Mismatch α → Decoder α
  | .ok a => pure a
  | .error m => refuse m

/-- A mismatch of `d` that has no place gets the one of a node. -/
def located (path : String) (mark : Mark) (d : Decoder α) : Decoder α := fun doc n =>
  match d doc n with
  | .error f => .error ⟨f.cause, some (f.place.getD (path, mark))⟩
  | .ok r => .ok r

/-- The node itself, or the one that an alias refers to. -/
def resolve : Node → Decoder Node
  | .alias _ number => do
    let doc ← read
    let followed ← getModify (· + 1)
    if doc.events * 100 < followed + 1 then throw ⟨.repeatedTooOften, none⟩
    else match doc.target? number with
      | some n => pure n
      | none => throw ⟨.endOfStream, none⟩
  | n => pure n

/-- What a scalar stands for. -/
def meaning (tag : Option String) (plain : Bool) (value : String) : Except Mismatch Meaning :=
  match tag with
  | none => .ok (if plain then .ofPlain value else .text value)
  | some t =>
    if t.startsWith "!" then .ok (if plain then .ofPlain value else .text value)
    else Meaning.ofTagged t value

/-- The name in a tag of the document's own, as in `!name`. -/
def ownTag? (tag : Option String) : Option String := do
  match (← tag).toList with
  | '!' :: name => some (String.ofList name)
  | _ => none

/-- The mismatch of a node that is wanted to be something else. -/
def mismatch (n : Node) (expected : String) : Mismatch :=
  match n with
  | .scalar _ tag plain value => match meaning tag plain value with
    | .ok m => .kind m.found expected
    | .error e => e
  | .sequence .. => .kind .list expected
  | .mapping .. => .kind .table expected
  | .alias .. => .kind .null expected

/-- A plain scalar without letters, which may stand for an empty collection. -/
def isVacant : Node → Bool
  | .scalar _ _ plain value => plain && value.isEmpty
  | _ => false

/-- A text; any scalar is one. -/
def textAs (expected : String) (path : String) (n : Node) : Decoder String := do
  let n ← resolve n
  located path n.mark (match n with
    | .scalar _ _ _ value => pure value
    | n => refuse (mismatch n expected))

/-- A text. -/
def text (path : String) (n : Node) : Decoder String := textAs "a string" path n

/-- A known name. -/
def variant (names : List String) (path : String) (n : Node) : Decoder String := do
  let m := (← resolve n).mark
  let s ← textAs "variant identifier" path n
  if names.contains s then pure s else located path m (refuse (.unknownVariant s names))

/-- A plain scalar that stands for nothing. -/
def isNothing (tag : Option String) (plain : Bool) (value : String) : Except Mismatch Bool :=
  if !plain then .ok false
  else match tag with
    | some t =>
      if t = Meaning.coreTag "null" then
        if Meaning.isNull value then .ok true else .error (.value (.text value) "null")
      else .ok false
    | none => .ok (value.isEmpty || Meaning.isNull value)

/-- A value that may be left out as null. -/
def optional (decode : Node → Decoder α) (n : Node) : Decoder (Option α) := do
  let n ← resolve n
  match n with
  | .scalar _ tag plain value =>
    if ← ofExcept (isNothing tag plain value) then pure none else some <$> decode n
  | n => some <$> decode n

/-- The inside of a sequence or a mapping, one level further in. -/
def nested (levels : Nat) (mark : Mark) (body : Nat → Decoder α) : Decoder α :=
  match levels with
  | 0 => throw ⟨.nestedTooDeep mark, none⟩
  | levels + 1 => body levels

/-- Each item of a sequence, with its path. -/
def itemsFrom (path : String) (decode : String → Node → Decoder α) :
    Nat → List Node → Decoder (List α)
  | _, [] => pure []
  | i, n :: rest => do
    let a ← decode (pathOfItem path i) n
    return a :: (← itemsFrom path decode (i + 1) rest)

/-- The path of the value under a key node. -/
def pathOfEntry (path : String) : Node → String
  | .scalar _ _ _ key => pathOfKey path key
  | _ => if path = rootPath then "?" else path ++ ".?"

/-- A list of values. -/
def listOf (decode : Nat → String → Node → Decoder α) (levels : Nat) (path : String) (n : Node) :
    Decoder (List α) := do
  let n ← resolve n
  located path n.mark (match n with
    | .sequence m _ items => nested levels m fun levels => itemsFrom path (decode levels) 0 items
    | n => if isVacant n then pure [] else refuse (mismatch n "a sequence"))

/-- The entries of a mapping with texts as keys. -/
def entriesFrom (path : String) (decode : String → Node → Decoder α) :
    List (Node × Node) → Decoder (List (String × α))
  | [] => pure []
  | (k, v) :: rest => do
    let key ← text path k
    let a ← decode (pathOfEntry path k) v
    return (key, a) :: (← entriesFrom path decode rest)

/-- A mapping with a value under each key, in the order of the text. -/
def tableOf (decode : Nat → String → Node → Decoder α) (levels : Nat) (path : String) (n : Node) :
    Decoder (List (String × α)) := do
  let n ← resolve n
  located path n.mark (match n with
    | .mapping m _ entries =>
      nested levels m fun levels => entriesFrom path (decode levels) entries
    | n => if isVacant n then pure [] else refuse (mismatch n "a map"))

/-- The fields of a record from the entries of a mapping, and the names of those that were
found. -/
def fieldEntries (path : String) (slots : List (Slot (String → Node → Decoder (σ → σ)))) :
    List (Node × Node) → σ → List String → Decoder (σ × List String)
  | [], state, seen => pure (state, seen)
  | (k, v) :: rest, state, seen => do
    let name ← textAs "field identifier" path k
    match Slot.find? slots name with
    | none => fieldEntries path slots rest state seen
    | some s =>
      if seen.contains s.name then refuse (.duplicateField s.name)
      else do
        let set ← s.read (pathOfEntry path k) v
        fieldEntries path slots rest (set state) (s.name :: seen)

/-- A record; fields that are left out keep their value in `start`. -/
def record (expected : String) (slots : Nat → List (Slot (String → Node → Decoder (σ → σ))))
    (start : σ) (levels : Nat) (path : String) (n : Node) : Decoder σ := do
  let finish (slots : List (Slot (String → Node → Decoder (σ → σ)))) (r : σ × List String) :
      Decoder σ :=
    match Slot.missing? slots r.2 with
    | none => pure r.1
    | some name => refuse (.missingField name)
  let n ← resolve n
  located path n.mark (match n with
    | .mapping m _ entries => nested levels m fun levels => do
      finish (slots levels) (← fieldEntries path (slots levels) entries start [])
    | n =>
      -- An empty document reads as a record without fields.
      if isVacant n then finish (slots levels) (start, []) else refuse (mismatch n expected))

/-- One of a set of names, as a text or as a tag over nothing. -/
def choice (names : List String) (path : String) (n : Node) : Decoder String := do
  let n ← resolve n
  located path n.mark (match n with
    | .scalar _ tag plain value => match ownTag? tag with
      | none => variant names path n
      | some name =>
        if !names.contains name then refuse (.unknownVariant name names)
        -- A unit variant may be written as its tag alone, with nothing or null behind it.
        else if plain && (value.isEmpty || Meaning.isNull value) then pure name
        else refuse (.value (.text value) "null")
    | .sequence _ tag _ => match ownTag? tag with
      | none => refuse (.kind .list "a YAML tag starting with '!'")
      | some name =>
        if !names.contains name then refuse (.unknownVariant name names)
        else refuse (.kind .list "unit")
    | .mapping _ tag _ => match ownTag? tag with
      | none => refuse (.kind .table "a YAML tag starting with '!'")
      | some name =>
        if !names.contains name then refuse (.unknownVariant name names)
        else refuse (.kind .table "unit")
    | .alias .. => refuse (mismatch n "unit"))

/-- Each entry of a mapping, key and value set aside. -/
def bufferedEntries (path : String) (decode : String → Node → Decoder Buffered) :
    List (Node × Node) → Decoder (List (Buffered × Buffered))
  | [] => pure []
  | (k, v) :: rest => do
    let key ← decode path k
    let value ← decode (pathOfEntry path k) v
    return (key, value) :: (← bufferedEntries path decode rest)

/-- The refusal of a tag of the document's own on a part that is set aside. -/
def ownTagRefused : Mismatch :=
  .other "untagged and internally tagged enums do not support enum input"

/-- Any node, set aside. -/
def buffered : Nat → String → Node → Decoder Buffered
  | levels, path, n => do
    let n ← resolve n
    located path n.mark (match n with
      | .scalar _ tag plain value =>
        if (ownTag? tag).isSome then refuse ownTagRefused
        else do ofExcept (← ofExcept (meaning tag plain value)).buffered
      | .sequence m tag items =>
        if (ownTag? tag).isSome then refuse ownTagRefused
        else match levels with
          | 0 => throw ⟨.nestedTooDeep m, none⟩
          | levels + 1 => .list <$> itemsFrom path (buffered levels) 0 items
      | .mapping m tag entries =>
        if (ownTag? tag).isSome then refuse ownTagRefused
        else match levels with
          | 0 => throw ⟨.nestedTooDeep m, none⟩
          | levels + 1 => .table <$> bufferedEntries path (buffered levels) entries
      | n => refuse (mismatch n "any value"))

/-- The entries of a tagged mapping: the tag, and the others set aside. -/
def taggedEntries (tag : String) (names : List String) (levels : Nat) (path : String) :
    List (Node × Node) → Option String → List (Buffered × Buffered) →
      Decoder (Option String × List (Buffered × Buffered))
  | [], found, taken => pure (found, taken.reverse)
  | (k, v) :: rest, found, taken => do
    -- Every key is read in full before it is compared, since any value may stand as one.
    match ← buffered levels path k with
    | .text key =>
      if key = tag then
        if found.isSome then refuse (.duplicateField tag)
        else do
          let name ← variant names (pathOfEntry path k) v
          taggedEntries tag names levels path rest (some name) taken
      else do
        let value ← buffered levels (pathOfEntry path k) v
        taggedEntries tag names levels path rest found ((.text key, value) :: taken)
    | key => do
      let value ← buffered levels (pathOfEntry path k) v
      taggedEntries tag names levels path rest found ((key, value) :: taken)

/-- A tagged value: its tag, and the rest of it set aside. -/
def tagged (expected tag : String) (names : List String) (levels : Nat) (path : String)
    (n : Node) : Decoder (String × Buffered) := do
  let n ← resolve n
  located path n.mark (match n with
    | .sequence m own items =>
      if (ownTag? own).isSome then refuse (.kind .tagged expected)
      else nested levels m fun levels => match items with
        | [] => refuse (.missingField tag)
        | t :: rest => do
          let name ← variant names (pathOfItem path 0) t
          return (name, .list (← itemsFrom path (buffered levels) 1 rest))
    | .mapping m own entries =>
      if (ownTag? own).isSome then refuse (.kind .tagged expected)
      else nested levels m fun levels => do
        match ← taggedEntries tag names levels path entries none [] with
        | (some name, rest) => return (name, .table rest)
        | (none, _) => refuse (.missingField tag)
    | .scalar _ own _ _ =>
      if (ownTag? own).isSome then refuse (.kind .tagged expected)
      else refuse (mismatch n expected)
    | n => refuse (mismatch n expected))

end Decoder

/-- Decode the root of a document. -/
def Document.decode {α : Type} (decode : Nat → String → Node → Decoder α) (d : Document) :
    Except Fault α := do
  let (a, _) ← (decode Decoder.maxLevels rootPath d.root).run d |>.run 0
  return a

end Deployment.Yaml
