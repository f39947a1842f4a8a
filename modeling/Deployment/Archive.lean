import Deployment.Descriptor.Application
import Deployment.Storage.FileTree

/-! # Archives

An archive holds the descriptor of an application, as a YAML document or as a JSON text. Which of
the two it is can be seen from its name.

* **`ArchiveFormat`** — how an archive is written.
* **`ArchiveFault`** — why it cannot be read.
* **`ApplicationSpec.ofArchive`** — the descriptor in an archive. -/

namespace Deployment

/-- How an archive is written. -/
inductive ArchiveFormat where
  | json
  | yaml
  deriving DecidableEq, Repr

namespace ArchiveFormat

/-- The name of a format. -/
def name : ArchiveFormat → String
  | .json => "Json"
  | .yaml => "Yaml"

/-- The extensions of YAML files, in any case of their letters. -/
def yamlExtensions : List String := ["yaml", "yml"]

/-- The format of the file at a path: YAML if its extension says so, else JSON. -/
def ofPath (path : String) : ArchiveFormat :=
  match Path.extension? path with
  | some e => if yamlExtensions.contains (e.map Char.toLower) then .yaml else .json
  | none => .json

end ArchiveFormat

/-- Why an archive cannot be read. -/
inductive ArchiveFault where
  | empty
  | json (fault : Json.Fault)
  /-- The bytes are no text. -/
  | notText
  | yamlSyntax (fault : Yaml.SyntaxFault)
  | yaml (fault : Yaml.Fault)

/-- The text of a fault. -/
def ArchiveFault.message : ArchiveFault → String
  | .empty => "archive is empty"
  | .json f => f.message
  | .notText => "invalid UTF-8"
  | .yamlSyntax f => f.message
  | .yaml f => f.message

/-- A byte that stands for nothing in an archive: a blank of ASCII. -/
def isArchiveBlank (b : UInt8) : Bool := b = 0x20 || b = 0x09 || b = 0x0A || b = 0x0C || b = 0x0D

/-- The descriptor in a YAML document. -/
def ApplicationSpec.ofYaml (bytes : List UInt8) : Except ArchiveFault ApplicationSpec := do
  match Utf8.decode? bytes with
  | none => throw .notText
  | some text => match Yaml.Document.parse text.toList with
    | .error f => throw (.yamlSyntax f)
    | .ok document => match document.decode ApplicationSpec.layout.fromYaml with
      | .error f => throw (.yaml f)
      | .ok spec => return spec

/-- The descriptor in a JSON text. -/
def ApplicationSpec.ofJson (bytes : List UInt8) : Except ArchiveFault ApplicationSpec :=
  match ApplicationSpec.layout.parse bytes with
  | .ok spec => .ok spec
  | .error f => .error (.json f)

/-- The descriptor in the archive at a path. -/
def ApplicationSpec.ofArchive (path : String) (bytes : List UInt8) :
    Except ArchiveFault ApplicationSpec :=
  if bytes.all isArchiveBlank then .error .empty
  else match ArchiveFormat.ofPath path with
    | .json => ApplicationSpec.ofJson bytes
    | .yaml => ApplicationSpec.ofYaml bytes

end Deployment
