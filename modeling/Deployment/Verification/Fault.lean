import Deployment.Metadata

/-! # Faults of verification

* **`GraphFault`** — what is wrong with a workflow.
* **`OwnerConflict`** — an owner that is asked for is not the owner that there is.
* **`VerificationFault`** — why an application is not admitted. -/

namespace Deployment

/-- What is wrong with a workflow. -/
inductive GraphFault where
  | duplicateNode (node workflow : String)
  /-- An action runs a program that the application does not declare. -/
  | missingProgram (kind : ProgramKind) (program : String)
  /-- An action runs a program of a kind that no workflow can run. -/
  | unknownProgram (kind : ProgramKind) (program workflow : String)
  | emptyFork (workflow : String)
  deriving DecidableEq, Repr

/-- The kind of a fault. -/
def GraphFault.kind : GraphFault → String
  | .duplicateNode _ _ => "DuplicateNode"
  | .missingProgram _ _ => "MissingProgram"
  | .unknownProgram _ _ _ => "UnknownProgram"
  | .emptyFork _ => "EmptyFork"

/-- The text of a fault. -/
def GraphFault.message : GraphFault → String
  | .duplicateNode node workflow =>
    "node '" ++ node ++ "' already exists in workflow '" ++ workflow ++ "'"
  | .missingProgram kind program =>
    kind.text ++ " program '" ++ program ++ "' is not configured with the application"
  | .unknownProgram kind program workflow =>
    "unknown program '" ++ program ++ "' of type " ++ kind.text ++ " in workflow '" ++ workflow ++
      "'"
  | .emptyFork workflow => "fork is added in workflow '" ++ workflow ++ "' without any branches"

/-- An owner that is asked for is not the owner that there is. -/
structure OwnerConflict where
  entity : EntityId
  existing : Option Principal
  requested : Option Principal
  deriving DecidableEq, Repr

/-- The text of a conflict. -/
def OwnerConflict.message (c : OwnerConflict) : String :=
  "updating the owner of " ++ c.entity.text ++ " is not supported: existing owner " ++
    Principal.describe? c.existing ++ ", requested owner " ++ Principal.describe? c.requested

/-- Why an application is not admitted. -/
inductive VerificationFault where
  /-- The owner that is asked for is no principal. -/
  | invalidPrincipal (name : String)
  | unauthorized (conflict : OwnerConflict)
  /-- A part of the descriptor is refused, in the words of its verifier. -/
  | invalidSpecification (reason : String)
  /-- A dataset exists with another type than the one declared. -/
  | datasetTypeMismatch (dataset kind : String)
  | graph (fault : GraphFault)
  /-- A schedule runs a workflow that is not declared. -/
  | invalidSchedule (schedule workflow application : String)
  | backend (fault : StoreFault)
  deriving DecidableEq, Repr

namespace VerificationFault

/-- The kind of a fault, with the kind of the fault behind it. -/
def kind : VerificationFault → String
  | .invalidPrincipal _ => "InvalidPrincipal"
  | .unauthorized _ => "Unauthorized"
  | .invalidSpecification _ => "InvalidSpecification"
  | .datasetTypeMismatch _ _ => "DatasetTypeMismatch"
  | .graph f => "Graph." ++ f.kind
  | .invalidSchedule _ _ _ => "InvalidSchedule"
  | .backend f => "Backend." ++ f.kind

/-- The text of a fault. -/
def message : VerificationFault → String
  | .invalidPrincipal name => "invalid owner principal: " ++ Principal.invalidMessage name
  | .unauthorized c => c.message
  | .invalidSpecification reason => reason
  | .datasetTypeMismatch dataset kind =>
    "cannot deploy dataset '" ++ dataset ++ "' with type '" ++ kind ++
      "': dataset with different type already exists"
  | .graph f => f.message
  | .invalidSchedule schedule workflow application =>
    "schedule '" ++ schedule ++ "' is invalid: workflow '" ++ workflow ++
      "' is not configured in application '" ++ application ++ "'"
  | .backend f => "verification backend error: " ++ f.message

/-- The texts of the faults behind a fault. -/
def causes : VerificationFault → List String
  | .invalidPrincipal name => [Principal.invalidMessage name]
  | .backend f => [f.message]
  | _ => []

/-- The fault is that someone may not do what was asked. -/
def isUnauthorized : VerificationFault → Bool
  | .unauthorized _ => true
  | .backend (.unauthorized _ _) => true
  | _ => false

end VerificationFault

end Deployment
