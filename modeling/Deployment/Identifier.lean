import Deployment.Json.Form

/-! # Identifiers of applications and datasets

Every application and every dataset lives in a namespace, which is the account that deployed it.

* **`isIdentifier`**, **`isDatasetName`** — the names that are accepted.
* **`ApplicationRef`**, **`ApplicationId`**, **`DatasetId`** — identities.
* **`EntityId`** — an identity that may have an owner. -/

namespace Deployment

/-- A letter, digit, underscore or hyphen of ASCII. -/
def isIdentifierChar (c : Char) : Bool :=
  ('A' ≤ c && c ≤ 'Z') || ('a' ≤ c && c ≤ 'z') || ('0' ≤ c && c ≤ '9') || c = '_' || c = '-'

/-- The names of accounts, applications and programs: one or more identifier characters. -/
def isIdentifier (s : String) : Bool := !s.isEmpty && s.toList.all isIdentifierChar

/-- The names of datasets, which may also hold dollar signs and dots. -/
def isDatasetName (s : String) : Bool :=
  !s.isEmpty && s.toList.all fun c => isIdentifierChar c || c = '$' || c = '.'

/-- The version of an application that names none. -/
def defaultVersion : String := "-SNAPSHOT"

/-- An application without regard to its versions. -/
structure ApplicationRef where
  scope : String
  application : String
  deriving DecidableEq, Repr

/-- A version of an application. -/
structure ApplicationId where
  scope : String
  application : String
  version : String
  deriving DecidableEq, Repr

/-- A dataset. -/
structure DatasetId where
  scope : String
  dataset : String
  deriving DecidableEq, Repr

/-- What may have an owner: an application or a dataset. -/
inductive EntityId where
  | application (ref : ApplicationRef)
  | dataset (id : DatasetId)
  deriving DecidableEq, Repr

/-- An application as messages name it. -/
def ApplicationRef.text (r : ApplicationRef) : String :=
  "application:" ++ r.scope ++ "." ++ r.application

/-- The application at a version. -/
def ApplicationRef.at (r : ApplicationRef) (version : String) : ApplicationId :=
  ⟨r.scope, r.application, version⟩

/-- A version as messages name it. -/
def ApplicationId.text (a : ApplicationId) : String :=
  "application:" ++ a.scope ++ "." ++ a.application ++ "." ++ a.version

/-- The application of a version. -/
def ApplicationId.ref (a : ApplicationId) : ApplicationRef := ⟨a.scope, a.application⟩

/-- A dataset in the namespace of the application. -/
def ApplicationId.dataset (a : ApplicationId) (name : String) : DatasetId := ⟨a.scope, name⟩

/-- A version of an application is the version of it that the application has. -/
@[simp] theorem ApplicationId.ref_at (a : ApplicationId) : a.ref.at a.version = a := rfl

/-- Every version of an application is one of that application. -/
@[simp] theorem ApplicationRef.at_ref (r : ApplicationRef) (v : String) : (r.at v).ref = r := rfl

/-- A dataset as messages name it. -/
def DatasetId.text (d : DatasetId) : String := "dataset:" ++ d.scope ++ "." ++ d.dataset

/-- An entity as messages name it. -/
def EntityId.text : EntityId → String
  | .application r => r.text
  | .dataset d => d.text

/-- The namespace of an entity. -/
def EntityId.scope : EntityId → String
  | .application r => r.scope
  | .dataset d => d.scope

/-! ## JSON forms -/

/-- An application as a JSON object. -/
def ApplicationRef.form : Json.Form ApplicationRef :=
  .record "struct ApplicationReference"
    [.of "namespace" true .text (·.scope) (fun v r => { r with scope := v }),
     .of "application" true .text (·.application) (fun v r => { r with application := v })]
    ⟨"", ""⟩

/-- A version as a JSON object. -/
def ApplicationId.form : Json.Form ApplicationId :=
  .record "struct ApplicationId"
    [.of "namespace" true .text (·.scope) (fun v a => { a with scope := v }),
     .of "application" true .text (·.application) (fun v a => { a with application := v }),
     .of "version" true .text (·.version) (fun v a => { a with version := v })]
    ⟨"", "", ""⟩

/-- A dataset as a JSON object. -/
def DatasetId.form : Json.Form DatasetId :=
  .record "struct DatasetId"
    [.of "namespace" true .text (·.scope) (fun v d => { d with scope := v }),
     .of "dataset" true .text (·.dataset) (fun v d => { d with dataset := v })]
    ⟨"", ""⟩

/-- An entity as a JSON object whose one member is named for the kind of the entity. -/
def EntityId.form : Json.Form EntityId where
  read := Json.Reader.alternative ["Application", "Dataset"] fun levels name =>
    if name = "Application" then .application <$> ApplicationRef.form.read levels
    else .dataset <$> DatasetId.form.read levels
  write
    | .application r => .object [("Application", ApplicationRef.form.write r)]
    | .dataset d => .object [("Dataset", DatasetId.form.write d)]

end Deployment
