import Deployment.Document.Buffered

/-! # Records in documents

A record stands in a document as a table of its fields or as a list of them in order. What a
reader knows of a field is its name, whether it may be left out, and how its value is read.

* **`Slot ρ`** — a field, with a reader of type `ρ`.
* **`Slot.missing?`** — the first field that may not be left out and was.
* **`Buffered.readRecord`** — a record from a part that was set aside. -/

namespace Deployment

/-- A field of a record as a reader sees it. -/
structure Slot (ρ : Type) where
  name : String
  required : Bool
  read : ρ

/-- The names of the fields. -/
def Slot.names {ρ : Type} (slots : List (Slot ρ)) : List String := slots.map (·.name)

/-- The field of a name. -/
def Slot.find? {ρ : Type} (slots : List (Slot ρ)) (name : String) : Option (Slot ρ) :=
  slots.find? (·.name = name)

/-- The first required field whose name was not seen. -/
def Slot.missing? {ρ : Type} (slots : List (Slot ρ)) (seen : List String) : Option String :=
  (slots.find? fun s => s.required && !seen.contains s.name).map (·.name)

/-- How a refusal names a list that should hold the fields of a record. -/
def Slot.listing {ρ : Type} (expected : String) (slots : List (Slot ρ)) : String :=
  expected ++ " with " ++ elements slots.length

namespace Buffered

variable {σ : Type}

/-- The fields from a list, starting with field number `i`; the items that are left over. -/
def readFields (short : String) :
    Nat → List (Slot (Buffered → Except Mismatch (σ → σ))) → List Buffered → σ →
      Except Mismatch (σ × List Buffered)
  | _, [], items, state => .ok (state, items)
  | i, s :: slots, v :: items, state => do
    let set ← s.read v
    readFields short (i + 1) slots items (set state)
  | i, s :: slots, [], state =>
    if s.required then .error (.length i short) else readFields short (i + 1) slots [] state

/-- The fields from the entries of a table. -/
def readEntries (slots : List (Slot (Buffered → Except Mismatch (σ → σ)))) :
    List (Buffered × Buffered) → σ → List String → Except Mismatch (σ × List String)
  | [], state, seen => .ok (state, seen)
  | (k, v) :: rest, state, seen => do
    match (← chosenField (Slot.names slots) k).bind (Slot.find? slots) with
    | none => readEntries slots rest state seen
    | some s =>
      if seen.contains s.name then .error (.duplicateField s.name)
      else readEntries slots rest ((← s.read v) state) (s.name :: seen)

/-- A record from a list or a table; fields that are left out keep their value in `start`. -/
def readRecord (expected : String) (slots : List (Slot (Buffered → Except Mismatch (σ → σ))))
    (start : σ) : Buffered → Except Mismatch σ
  | .list items => do
    let (state, extra) ← readFields (Slot.listing expected slots) 0 slots items start
    if extra.isEmpty then return state
    else throw (.length items.length (elements (items.length - extra.length) ++ " in sequence"))
  | .table entries => do
    let (state, seen) ← readEntries slots entries start []
    match Slot.missing? slots seen with
    | none => return state
    | some name => throw (.missingField name)
  | v => v.refuse expected

end Buffered

end Deployment
