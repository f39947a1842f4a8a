import Deployment.Json.Form
import Deployment.Yaml.Decoder

/-! # Layouts of descriptor types

The types of a descriptor are read from JSON texts, from YAML documents and from parts that were
set aside, and written as JSON. A layout says all four for one type.

* **`Layout α`** — the layout of the values of `α`; it extends their JSON form.
* **`Layout.Field σ`** — a field of a record with its layout.
* **`Layout.text`**, **`.list`**, **`.table`**, **`.choice`**, **`.record`** — the layouts, and
  the ways to put them together. -/

namespace Deployment

/-- How the values of a type stand in documents. -/
structure Layout (α : Type) extends Json.Form α where
  /-- Decode a node of a YAML document, with so many levels of nesting left. -/
  fromYaml : Nat → String → Yaml.Node → Yaml.Decoder α
  /-- Read a part that was set aside. -/
  fromBuffered : Buffered → Except Mismatch α

namespace Layout

variable {α σ : Type}

/-- A field of a record. What is read of it is a change of the record. -/
structure Field (σ : Type) extends Json.Field σ where
  fromYaml : Nat → String → Yaml.Node → Yaml.Decoder (σ → σ)
  fromBuffered : Buffered → Except Mismatch (σ → σ)

/-- A field that is always written; unless it is required it may be left out when read. -/
def Field.of (name : String) (required : Bool) (layout : Layout α) (get : σ → α)
    (set : α → σ → σ) : Field σ where
  toField := .of name required layout.toForm get set
  fromYaml levels path n := set <$> layout.fromYaml levels path n
  fromBuffered v := set <$> layout.fromBuffered v

/-- A field that is written only when it has a value, and may be null when read. -/
def Field.optional (name : String) (layout : Layout α) (get : σ → Option α)
    (set : Option α → σ → σ) : Field σ where
  toField := .optional name layout.toForm get set
  fromYaml levels path n := set <$> Yaml.Decoder.optional (layout.fromYaml levels path) n
  fromBuffered v := set <$> Buffered.readOptional layout.fromBuffered v

/-- The field as a decoder of YAML sees it. -/
def Field.yamlSlot (levels : Nat) (f : Field σ) :
    Slot (String → Yaml.Node → Yaml.Decoder (σ → σ)) :=
  ⟨f.name, f.required, f.fromYaml levels⟩

/-- The field as a reader of parts that were set aside sees it. -/
def Field.bufferedSlot (f : Field σ) : Slot (Buffered → Except Mismatch (σ → σ)) :=
  ⟨f.name, f.required, f.fromBuffered⟩

/-- A text. -/
def text : Layout String where
  toForm := .text
  fromYaml _ := Yaml.Decoder.text
  fromBuffered := Buffered.readText

/-- A list of values. -/
def list (layout : Layout α) : Layout (List α) where
  toForm := .list layout.toForm
  fromYaml := Yaml.Decoder.listOf layout.fromYaml
  fromBuffered := Buffered.readList layout.fromBuffered

/-- A map from names; of two entries with one name the later counts. -/
def table (layout : Layout α) : Layout (NameMap α) where
  toForm := .table layout.toForm
  fromYaml levels path n := NameMap.ofList <$> Yaml.Decoder.tableOf layout.fromYaml levels path n
  fromBuffered
    | .table entries => NameMap.ofList <$> entries.mapM fun e => do
        return (← Buffered.readText e.1, ← layout.fromBuffered e.2)
    | v => v.refuse "a map"

/-- One of a few values, each under its name. -/
def choice (names : List (String × α)) (name : α → String) : Layout α :=
  let known := names.map (·.1)
  let find (chosen : String) : Except Mismatch α :=
    match NameMap.lookup chosen names with
    | some a => .ok a
    | none => .error (.unknownVariant chosen known)
  { toForm := .choice names name
    fromYaml := fun _ path n => do
      Yaml.Decoder.ofExcept (find (← Yaml.Decoder.choice known path n))
    fromBuffered := fun v => do find (← Buffered.readChoice known v) }

/-- A record; `start` holds the values of fields that are left out. -/
def record (expected : String) (fields : List (Field σ)) (start : σ) : Layout σ where
  toForm := .record expected (fields.map (·.toField)) start
  fromYaml :=
    Yaml.Decoder.record expected (fun levels => fields.map (·.yamlSlot levels)) start
  fromBuffered := Buffered.readRecord expected (fields.map (·.bufferedSlot)) start

end Layout

end Deployment
