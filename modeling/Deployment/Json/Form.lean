import Deployment.Data.NameMap
import Deployment.Json.Reader
import Deployment.Json.Value

/-! # JSON forms of types

A form says how the values of a type stand in JSON texts: how they are read and how they are
written. Forms of records are put together from forms of their fields.

* **`Json.Form α`** — the form of the values of `α`.
* **`Json.Field σ`** — a field of a record `σ` with its form.
* **`Form.text`**, **`.natural`**, **`.list`**, **`.table`**, **`.choice`**, **`.record`** — the
  forms, and the ways to put them together.
* **`Form.parse`**, **`Form.compact`**, **`Form.pretty`** — from a text and back. -/

namespace Deployment.Json

/-- How the values of a type are read from JSON texts and written to them. -/
structure Form (α : Type) where
  /-- Read a value, with so many levels of nesting left. -/
  read : Nat → Reader α
  /-- The document of a value. -/
  write : α → Json

/-- A field of a record. What is read of it is a change of the record. -/
structure Field (σ : Type) where
  name : String
  /-- The field may not be left out. -/
  required : Bool
  read : Nat → Reader (σ → σ)
  /-- The value, unless it is left out. -/
  write : σ → Option Json

/-- The field as a reader sees it. -/
def Field.slot {σ : Type} (levels : Nat) (f : Field σ) : Slot (Reader (σ → σ)) :=
  ⟨f.name, f.required, f.read levels⟩

namespace Field

variable {σ α : Type}

/-- A field that is always written; unless it is required it may be left out when read. -/
def of (name : String) (required : Bool) (form : Form α) (get : σ → α) (set : α → σ → σ) :
    Field σ where
  name := name
  required := required
  read levels := set <$> form.read levels
  write s := some (form.write (get s))

/-- A field that is written only when it has a value, and may be null when read. -/
def optional (name : String) (form : Form α) (get : σ → Option α) (set : Option α → σ → σ) :
    Field σ where
  name := name
  required := false
  read levels := set <$> Reader.optional (form.read levels)
  write s := (get s).map form.write

end Field

namespace Form

variable {α β σ : Type}

/-- The form of a type whose values stand for those of another. -/
def imap (f : α → β) (g : β → α) (form : Form α) : Form β where
  read levels := f <$> form.read levels
  write b := form.write (g b)

/-- A text. -/
def text : Form String := ⟨fun _ => Reader.text, .text⟩

/-- A text that has to be judged. -/
def judged (expected : String) (judge : String → Except Mismatch α) (print : α → String) :
    Form α :=
  ⟨fun _ => Reader.judged expected judge, fun a => .text (print a)⟩

/-- A natural number up to `max`. -/
def natural (expected : String) (max : Nat) : Form Nat :=
  ⟨fun _ => Reader.natural expected max, fun n => .number n⟩

/-- An integer of 64 bits with sign. -/
def integer (expected : String) : Form Int := ⟨fun _ => Reader.integer expected, .number⟩

/-- A list of values. -/
def list (form : Form α) : Form (List α) :=
  ⟨Reader.listOf form.read, fun l => .list (l.map form.write)⟩

/-- A map from names; of two members with one name the later counts. -/
def table (form : Form α) : Form (NameMap α) where
  read levels := NameMap.ofList <$> Reader.tableOf form.read levels
  write m := .object (m.entries.map fun e => (e.1, form.write e.2))

/-- One of a few values, each under its name. -/
def choice (names : List (String × α)) (name : α → String) : Form α where
  read levels := do
    let chosen ← Reader.choice (names.map (·.1)) levels
    match NameMap.lookup chosen names with
    | some a => pure a
    | none => Reader.failWithoutPlace (.unknownVariant chosen (names.map (·.1)))
  write a := .text (name a)

/-- A record, as an object of its fields; `start` holds the values of fields that are left
out. -/
def record (expected : String) (fields : List (Field σ)) (start : σ) : Form σ where
  read := Reader.record expected (fun levels => fields.map (·.slot levels)) start
  write s := .object (fields.filterMap fun f => (f.write s).map fun v => (f.name, v))

/-- Read a value from the bytes of a text. -/
def parse (form : Form α) (bytes : List UInt8) : Except Fault α := Json.read form.read bytes

/-- The text of a value without blanks. -/
def compact (form : Form α) (a : α) : String := (form.write a).compact

/-- The indented text of a value. -/
def pretty (form : Form α) (a : α) : String := (form.write a).pretty

end Form

end Deployment.Json
