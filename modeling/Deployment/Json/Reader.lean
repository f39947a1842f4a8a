import Deployment.Document.Slot
import Deployment.Json.Skip

/-! # Reading values from JSON texts

One reader for each kind of value that a type may ask for. A text is read once, from front to
back, so of two faults the one that is met first is reported. Lists and objects may be nested
`Reader.maxLevels` deep; each reader of them is told how many levels are left.

* **`Reader.text`**, **`.natural`**, **`.integer`** — plain values.
* **`Reader.optional`**, **`.listOf`**, **`.tableOf`**, **`.record`**, **`.choice`**,
  **`.alternative`** — values made of values.
* **`Reader.buffered`**, **`.tagged`** — parts that are set aside.
* **`Json.read`** — a whole text. -/

namespace Deployment.Json

namespace Reader

variable {α σ : Type}

/-- How deep lists and objects may be nested. -/
def maxLevels : Nat := 127

/-- The byte that starts the next value. -/
def startOfValue : Reader UInt8 := do
  match ← peekToken with
  | some b => pure b
  | none => failNext .eofInValue

/-- Refuse the value that starts with `b` for its kind. Plain values are read first, so that
their own faults come before. -/
def refuse (b : UInt8) (expected : String) : Reader α := located do
  let mismatch (found : Found) : Reader α := failWithoutPlace (.kind found expected)
  if b = 0x6E then do skip; passWord [0x75, 0x6C, 0x6C]; mismatch .null
  else if b = 0x74 then do skip; passWord [0x72, 0x75, 0x65]; mismatch (.bool true)
  else if b = 0x66 then do skip; passWord [0x61, 0x6C, 0x73, 0x65]; mismatch (.bool false)
  else if b = 0x2D || isDigit b then do mismatch (← number).found
  else if b = 0x22 then do skip; mismatch (.text (← quotedText))
  else if b = 0x5B then mismatch .list
  else if b = 0x7B then mismatch .table
  else failNext .expectedValue

/-- A string, judged by `judge`. -/
def judged (expected : String) (judge : String → Except Mismatch α) : Reader α := do
  let b ← startOfValue
  if b = 0x22 then located do skip; ofExcept (judge (← quotedText))
  else refuse b expected

/-- A string. -/
def text : Reader String := judged "a string" .ok

/-- A number, judged by `judge`. -/
def judgedNumber (expected : String) (judge : Number → Except Mismatch α) : Reader α := do
  let b ← startOfValue
  if b = 0x2D || isDigit b then located do ofExcept (judge (← number))
  else refuse b expected

/-- A natural number up to `max`. -/
def natural (expected : String) (max : Nat) : Reader Nat :=
  judgedNumber expected fun
    | .natural n => if n ≤ max then .ok n else .error (.value (.integer n) expected)
    | .negative n => .error (.value (.integer n) expected)
    | .float f => .error (.kind (.float f) expected)

/-- An integer of 64 bits with sign. -/
def integer (expected : String) : Reader Int :=
  judgedNumber expected fun
    | .natural n => if n < Nat.pow 2 63 then .ok n else .error (.value (.integer n) expected)
    | .negative n => .ok n
    | .float f => .error (.kind (.float f) expected)

/-- A value that may be null. -/
def optional (read : Reader α) : Reader (Option α) := do
  if (← peekToken) = some 0x6E then
    skip
    passWord [0x75, 0x6C, 0x6C]
    pure none
  else some <$> read

/-- Tell whether another item follows in a list. -/
def nextItem (first : Bool) : Reader Bool := do
  match ← peekToken with
  | none => failNext .eofInList
  | some b =>
    if b = 0x5D then pure false
    else if first then pure true
    else if b = 0x2C then
      skip
      match ← peekToken with
      | none => failNext .eofInValue
      | some b => if b = 0x5D then failNext .trailingComma else pure true
    else failNext .expectedListCommaOrEnd

/-- The end of a list. -/
def endOfList : Reader Unit := do
  match ← peekToken with
  | none => failNext .eofInList
  | some b =>
    if b = 0x5D then skip
    else if b = 0x2C then
      skip
      if (← peekToken) = some 0x5D then failNext .trailingComma
      else failNext .trailingCharacters
    else failNext .trailingCharacters

/-- Tell whether another member follows in an object. -/
def nextMember (first : Bool) : Reader Bool := do
  let keyFollows (b : Option UInt8) : Reader Bool :=
    match b with
    | none => failNext .eofInValue
    | some b =>
      if b = 0x22 then pure true
      else if b = 0x7D then failNext .trailingComma
      else failNext .keyMustBeString
  match ← peekToken with
  | none => failNext .eofInObject
  | some b =>
    if b = 0x7D then pure false
    -- No comma stands before the first member.
    else if first then keyFollows (some b)
    else if b = 0x2C then do
      skip
      keyFollows (← peekToken)
    else failNext .expectedObjectCommaOrEnd

/-- The end of an object. -/
def endOfObject : Reader Unit := do
  match ← peekToken with
  | none => failNext .eofInObject
  | some b =>
    if b = 0x7D then skip
    else if b = 0x2C then failNext .trailingComma
    else failNext .trailingCharacters

/-- The colon behind a key. -/
def colon : Reader Unit := do
  match ← peekToken with
  | none => failNext .eofInObject
  | some b => if b = 0x3A then skip else failNext .expectedColon

/-- A key; its opening quote follows. -/
def key : Reader String := do
  skip
  quotedText

/-- The inside of a list or an object, one level further in. -/
def nested (levels : Nat) (body : Nat → Reader α) : Reader α :=
  match levels with
  | 0 => failNext .nestedTooDeep
  | levels + 1 => do
    skip
    body levels

/-- A list with the given inside; its bracket follows. -/
def inList (levels : Nat) (body : Nat → Reader α) : Reader α :=
  nested levels fun levels => closedBy (body levels) endOfList

/-- An object with the given inside; its bracket follows. -/
def inObject (levels : Nat) (body : Nat → Reader α) : Reader α :=
  nested levels fun levels => closedBy (body levels) endOfObject

/-- The items of a list behind those already read, in reverse. -/
def items (read : Reader α) : Nat → Bool → List α → Reader (List α)
  | 0, _, _ => failHere .eofInList
  | fuel + 1, first, taken => do
    if ← nextItem first then items read fuel false ((← read) :: taken)
    else pure taken.reverse

/-- The members of an object behind those already read, in reverse. -/
def members (read : Reader α) : Nat → Bool → List (String × α) → Reader (List (String × α))
  | 0, _, _ => failHere .eofInObject
  | fuel + 1, first, taken => do
    if ← nextMember first then
      let k ← key
      colon
      members read fuel false ((k, ← read) :: taken)
    else pure taken.reverse

/-- A list of values. -/
def listOf (read : Nat → Reader α) (levels : Nat) : Reader (List α) := do
  let b ← startOfValue
  if b = 0x5B then
    located (inList levels fun levels => do items (read levels) ((← remaining) + 1) true [])
  else refuse b "a sequence"

/-- An object with a value under each key, in the order of the text. -/
def tableOf (read : Nat → Reader α) (levels : Nat) : Reader (List (String × α)) := do
  let b ← startOfValue
  if b = 0x7B then
    located (inObject levels fun levels => do members (read levels) ((← remaining) + 1) true [])
  else refuse b "a map"

/-- The fields of a record from the items of a list, starting with field number `i`. -/
def fieldItems (short : String) :
    Nat → List (Slot (Reader (σ → σ))) → Bool → σ → Reader σ
  | _, [], _, state => pure state
  | i, s :: slots, first, state => do
    if ← nextItem first then fieldItems short (i + 1) slots false ((← s.read) state)
    else if s.required then failWithoutPlace (.length i short)
    else fieldItems short (i + 1) slots first state

/-- The fields of a record from the members of an object, and the names of those that were
found. Members that are no fields are passed over. -/
def fieldMembers (slots : List (Slot (Reader (σ → σ)))) :
    Nat → Bool → σ → List String → Reader (σ × List String)
  | 0, _, _, _ => failHere .eofInObject
  | fuel + 1, first, state, seen => do
    if ← nextMember first then
      let k ← key
      match Slot.find? slots k with
      | none => do
        colon
        passValue
        fieldMembers slots fuel false state seen
      | some s =>
        -- A field may come once, and the second one is refused before its value is read.
        if seen.contains s.name then failWithoutPlace (.duplicateField s.name)
        else do
          colon
          fieldMembers slots fuel false ((← s.read) state) (s.name :: seen)
    else pure (state, seen)

/-- A record, as an object or as the list of its fields; fields that are left out keep their
value in `start`. -/
def record (expected : String) (slots : Nat → List (Slot (Reader (σ → σ)))) (start : σ)
    (levels : Nat) : Reader σ := do
  let b ← startOfValue
  -- A list is taken for the fields in their order, an object by their names.
  if b = 0x5B then
    located (inList levels fun levels =>
      fieldItems (Slot.listing expected (slots levels)) 0 (slots levels) true start)
  else if b = 0x7B then
    located (inObject levels fun levels => do
      let (state, seen) ← fieldMembers (slots levels) ((← remaining) + 1) true start []
      match Slot.missing? (slots levels) seen with
      | none => pure state
      | some name => failWithoutPlace (.missingField name))
  else refuse b expected

/-- A known name as a string. -/
def variant (names : List String) : Reader String :=
  judged "variant identifier" fun s =>
    if names.contains s then .ok s else .error (.unknownVariant s names)

/-- A value that is a variant: the name alone, or an object with the name over its content. -/
def enumeration (names : List String) (bare : String → Reader α)
    (content : Nat → String → Reader α) (levels : Nat) : Reader α := do
  match ← peekToken with
  | none => failNext .eofInValue
  | some b =>
    -- A name alone, or an object whose only key is the name.
    if b = 0x22 then do bare (← variant names)
    else if b = 0x7B then
      let value ← nested levels fun levels => do
        let name ← variant names
        colon
        content levels name
      match ← peekToken with
      | none => failHere .eofInObject
      | some b => if b = 0x7D then do skip; pure value else failHere .expectedValue
    else failNext .expectedValue

/-- Nothing, written as null. -/
def nothing : Reader Unit := do
  let b ← startOfValue
  if b = 0x6E then do skip; passWord [0x75, 0x6C, 0x6C]
  else refuse b "unit"

/-- One of a set of names. -/
def choice (names : List String) (levels : Nat) : Reader String :=
  enumeration names pure (fun _ name => do nothing; pure name) levels

/-- One of a set of alternatives, each with content of its own. -/
def alternative (names : List String) (content : Nat → String → Reader α) (levels : Nat) :
    Reader α :=
  enumeration names (fun _ => failWithoutPlace (.kind .bareVariant "newtype variant"))
    content levels

/-- A plain value that is set aside. -/
def bufferedScalar (b : UInt8) : Reader Buffered :=
  if b = 0x6E then do skip; passWord [0x75, 0x6C, 0x6C]; pure .null
  else if b = 0x74 then do skip; passWord [0x72, 0x75, 0x65]; pure (.bool true)
  else if b = 0x66 then do skip; passWord [0x61, 0x6C, 0x73, 0x65]; pure (.bool false)
  else if b = 0x2D || isDigit b then do
    match ← number with
    | .natural n => pure (.natural n)
    | .negative n => pure (.negative n)
    | .float f => pure (.float f)
  else if b = 0x22 then do skip; .text <$> quotedText
  else failNext .expectedValue

/-- Any value, set aside. -/
def buffered : Nat → Reader Buffered
  | 0 => do
    let b ← startOfValue
    if b = 0x5B || b = 0x7B then failNext .nestedTooDeep else bufferedScalar b
  | levels + 1 => do
    let b ← startOfValue
    if b = 0x5B then do
      skip
      .list <$> closedBy (do items (buffered levels) ((← remaining) + 1) true []) endOfList
    else if b = 0x7B then do
      skip
      let entries ← closedBy (do members (buffered levels) ((← remaining) + 1) true []) endOfObject
      pure (.table (entries.map fun e => (.text e.1, e.2)))
    else bufferedScalar b

/-- The members of a tagged object: the tag, and the others set aside. -/
def taggedMembers (tag : String) (names : List String) (levels : Nat) :
    Nat → Bool → Option String → List (Buffered × Buffered) →
      Reader (Option String × List (Buffered × Buffered))
  | 0, _, _, _ => failHere .eofInObject
  | fuel + 1, first, found, taken => do
    if ← nextMember first then
      let k ← key
      if k = tag then
        -- The tag may come anywhere among the members, and once.
        if found.isSome then failWithoutPlace (.duplicateField tag)
        else do
          colon
          taggedMembers tag names levels fuel false (some (← variant names)) taken
      else do
        colon
        taggedMembers tag names levels fuel false found ((.text k, ← buffered levels) :: taken)
    else pure (found, taken.reverse)

/-- A tagged value: its tag, and the rest of it set aside. -/
def tagged (expected tag : String) (names : List String) (levels : Nat) :
    Reader (String × Buffered) := do
  let b ← startOfValue
  if b = 0x5B then
    located (inList levels fun levels => do
      if ← nextItem true then
        let name ← variant names
        pure (name, .list (← items (buffered levels) ((← remaining) + 1) false []))
      else failWithoutPlace (.missingField tag))
  else if b = 0x7B then
    located (inObject levels fun levels => do
      match ← taggedMembers tag names levels ((← remaining) + 1) true none [] with
      | (some name, entries) => pure (name, .table entries)
      | (none, _) => failWithoutPlace (.missingField tag))
  else refuse b expected

end Reader

/-- Read a whole text with `read`: nothing but blanks may follow the value. -/
def read {α : Type} (read : Nat → Reader α) (bytes : List UInt8) : Except Fault α :=
  let whole : Reader α := do
    let value ← read Reader.maxLevels
    if (← Reader.peekToken).isSome then Reader.failNext .trailingCharacters else pure value
  match whole (.ofBytes bytes) with
  | .ok a _ => .ok a
  | .error f _ => .error f

end Deployment.Json
