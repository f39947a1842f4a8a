import Deployment.Text.Blank
import Deployment.Text.Quoted
import Deployment.Verification.Fault

/-! # Verifiers

Each part of a descriptor is checked by the verifier of its kind.

* **`SpecKind`** — the kinds of parts.
* **`Subject`** — a part that is to be checked.
* **`SpecFault`** — what is wrong with a part.
* **`Verifier`** — the verifiers, and `Verifier.verify`. -/

namespace Deployment

/-- The kinds of parts of a descriptor. -/
inductive SpecKind where
  | application
  | dataset
  | program (kind : ProgramKind)
  deriving DecidableEq, Repr

namespace SpecKind

/-- Every kind, in order. -/
def all : List SpecKind := .application :: .dataset :: ProgramKind.all.map .program

/-- The text of a kind. -/
def text : SpecKind → String
  | .application => "application"
  | .dataset => "dataset-creation"
  | .program k => "program:" ++ k.text

end SpecKind

/-- A part of a descriptor that is to be checked. -/
inductive Subject where
  | application (spec : ApplicationSpec)
  | dataset (spec : DatasetSpec)
  | program (program : Program)
  deriving Repr

namespace Subject

/-- The kind of a part. -/
def kind : Subject → SpecKind
  | .application _ => .application
  | .dataset _ => .dataset
  | .program p => .program p.kind

/-- A part as a trace names it. -/
def describe : Subject → String
  | .application a => "Application(" ++ Text.quoted a.name ++ ")"
  | .dataset d => "DatasetCreation(" ++ Text.quoted d.name ++ ")"
  | .program p => "Program(" ++ Text.quoted p.name ++ ")"

end Subject

/-- What is wrong with a part of a descriptor. -/
inductive SpecFault where
  | emptyName
  | invalidName (application : String)
  | emptyVersion (application : String)
  /-- A program stands under another name than its own. -/
  | misplacedProgram (key : String) (program : Program)
  /-- A dataset stands under another name than its own. -/
  | misplacedDataset (key name : String)
  | invalidDatasetName (dataset application : String)
  | untypedDataset (dataset : String)
  /-- A program was given to the verifier for programs of another kind. -/
  | foreignProgram (expected : ProgramKind) (program : Program)
  | invalidProgramName (program : Program) (application : String)
  /-- A part was given to the verifier for parts of another category. -/
  | foreignSubject (kind : SpecKind)
  deriving DecidableEq, Repr

/-- The text of a fault. -/
def SpecFault.message : SpecFault → String
  | .emptyName => "application name is empty"
  | .invalidName a =>
    "application name '" ++ a ++ "' must contain only letters, digits, '_' or '-'"
  | .emptyVersion a => "application '" ++ a ++ "' has an empty version"
  | .misplacedProgram key p =>
    p.kind.text ++ " program registered as '" ++ key ++ "' is named '" ++ p.name ++ "'"
  | .misplacedDataset key name =>
    "dataset registered as '" ++ key ++ "' is named '" ++ name ++ "'"
  | .invalidDatasetName d a =>
    "dataset instance name '" ++ d ++ "' in application '" ++ a ++ "' is invalid"
  | .untypedDataset d => "dataset '" ++ d ++ "' does not declare a type"
  | .foreignProgram expected p =>
    expected.text ++ " verifier cannot check " ++ p.kind.text ++ " program '" ++ p.name ++ "'"
  | .invalidProgramName p a =>
    p.kind.text ++ " program name '" ++ p.name ++ "' in application '" ++ a ++ "' is invalid"
  | .foreignSubject kind => "no verifier of this category for " ++ kind.text

/-- The fault of an application that is not admitted because of a part. -/
def SpecFault.toVerification (f : SpecFault) : VerificationFault :=
  .invalidSpecification f.message

/-- What a verifier finds. -/
abbrev Verdict := Except SpecFault Unit

/-- What has to hold, with the fault if it does not. -/
def Verdict.require (ok : Bool) (fault : SpecFault) : Verdict :=
  if ok then .ok () else .error fault

open Verdict (require)

/-- An application needs a name that is an identifier and a version, and every program and
dataset has to stand under its own name. -/
def ApplicationSpec.verdict (a : ApplicationSpec) : Verdict := do
  require (!a.name.isEmpty) .emptyName
  require (isIdentifier a.name) (.invalidName a.name)
  require (!a.version.isEmpty) (.emptyVersion a.name)
  a.programs.forM fun p => require (p.1 = p.2.name) (.misplacedProgram p.1 p.2)
  a.datasets.entries.forM fun d => require (d.1 = d.2.name) (.misplacedDataset d.1 d.2.name)

/-- A dataset needs a valid name and a type that is not blank. -/
def DatasetSpec.verdict (d : DatasetSpec) (app : ApplicationId) : Verdict := do
  require (isDatasetName d.name) (.invalidDatasetName d.name app.application)
  require (!(Text.trim d.kind).isEmpty) (.untypedDataset d.name)

/-- A program has to be of the kind that is expected, and needs an identifier as its name. -/
def Program.verdict (p : Program) (expected : ProgramKind) (app : ApplicationId) : Verdict := do
  require (p.kind = expected) (.foreignProgram expected p)
  require (isIdentifier p.name) (.invalidProgramName p app.application)

/-- The verifiers. -/
inductive Verifier where
  | application
  | dataset
  | program (kind : ProgramKind)
  deriving DecidableEq, Repr

namespace Verifier

/-- The verifier for the parts of a kind. -/
def ofKind : SpecKind → Verifier
  | .application => .application
  | .dataset => .dataset
  | .program k => .program k

/-- Check a part of a descriptor; a part of another category is refused. -/
def verify (v : Verifier) (app : ApplicationId) (s : Subject) : Verdict :=
  match v, s with
  | .application, .application a => a.verdict
  | .dataset, .dataset d => d.verdict app
  | .program k, .program p => p.verdict k app
  | _, s => throw (.foreignSubject s.kind)

end Verifier

end Deployment
