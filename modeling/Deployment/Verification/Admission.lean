import Deployment.Verification.Graph
import Deployment.Verification.Registry

/-! # Admission of applications

An application that was loaded passes gates, one after the other, before it is registered; the
first gate that it does not pass decides. No gate changes what is deployed.

* **`Deployable`** — an application that was loaded.
* **`Gate α`** — a check that may ask the metadata and the registry of verifiers.
* **`Gate.authorizingUser`**, **`Gate.verifyOwner`** — who acts, and whether the owner may stay.
* **`Deployable.passGates`** — all gates.
* **`Deployable.approve`** — the application, if it passes them. -/

namespace Deployment

/-- An application that was loaded from its archive. -/
structure Deployable where
  id : ApplicationId
  spec : ApplicationSpec
  archive : String
  /-- The owner that is asked for. -/
  owner : Option Principal
  /-- Who asks for the deployment. -/
  requester : String
  deriving Repr

/-- The namespace that the application is deployed into. -/
def Deployable.scope (d : Deployable) : String := d.id.scope

/-- What the gates work with. -/
structure Gatehouse where
  metadata : Metadata
  registry : VerifierRegistry := .empty
  deriving Repr

/-- A check. What it noted before a fault stays so. -/
abbrev Gate (α : Type) := EStateM VerificationFault Gatehouse α

namespace Gate

/-- A request to the metadata. -/
def ask {α : Type} (request : Metadata.Change α) : Gate α := fun g =>
  match request g.metadata with
  | .ok a m => .ok a { g with metadata := m }
  | .error f m => .error (.backend f) { g with metadata := m }

/-- Check a part of a descriptor. -/
def verify (app : ApplicationId) (s : Subject) : Gate Unit := fun g =>
  let (verdict, registry) := (VerifierRegistry.verify app s).run g.registry
  match verdict with
  | .ok () => .ok () { g with registry := registry }
  | .error f => .error f.toVerification { g with registry := registry }

/-- The identity that looks at datasets: the owner that is asked for, else who acts for the
namespace, else who asks. -/
def authorizingUser (scope : String) (owner : Option Principal) (requester : String) :
    Gate String := do
  match owner with
  | some o => return o.name
  | none => match ← ask (Metadata.impersonationPrincipal scope) with
    | some p => return p.name
    | none => return requester

/-- The owner of an entity has to be the one that is asked for. -/
def verifyOwner (entity : EntityId) (requested : Option Principal) : Gate Unit := do
  let existing ← ask (Metadata.owner entity)
  if existing ≠ requested then throw (.unauthorized ⟨entity, existing, requested⟩)

end Gate

namespace Deployable

open Gate

/-- The owner that is asked for is a principal. -/
def ownerGate (d : Deployable) : Gate Unit := do
  match d.owner with
  | some o => if !o.isValid then throw (.invalidPrincipal o.name)
  | none => pure ()

/-- The owner that is asked for owns the versions that there are. -/
def versionGate (d : Deployable) : Gate Unit := do
  let versions ← ask (Metadata.versions d.id.ref)
  if !versions.isEmpty then verifyOwner (.application d.id.ref) d.owner

/-- A declared dataset is well formed; if it exists, it has the declared type and the owner that
is asked for. -/
def datasetGate (d : Deployable) (user : String) (spec : DatasetSpec) : Gate Unit := do
  Gate.verify d.id (.dataset spec)
  let id := d.id.dataset spec.name
  match ← ask (Metadata.dataset id user) with
  | some existing =>
    if existing.kind ≠ spec.kind then throw (.datasetTypeMismatch spec.name spec.kind)
    verifyOwner (.dataset id) d.owner
  | none => pure ()

/-- A workflow is valid. -/
def workflowGate (d : Deployable) (w : WorkflowSpec) : Gate Unit :=
  match d.spec.checkWorkflow w with
  | .ok _ => pure ()
  | .error f => throw (.graph f)

/-- A schedule runs a declared workflow. -/
def scheduleGate (d : Deployable) (s : ScheduleSpec) : Gate Unit := do
  if !d.spec.workflows.contains s.program then
    throw (.invalidSchedule s.name s.program d.spec.name)

/-- All gates, in order. -/
def passGates (d : Deployable) : Gate Unit := do
  d.ownerGate
  d.versionGate
  Gate.verify d.id (.application d.spec)
  let user ← authorizingUser d.scope d.owner d.requester
  d.spec.datasets.values.forM (d.datasetGate user)
  d.spec.programs.forM fun p => Gate.verify d.id (.program p.2)
  d.spec.workflows.values.forM d.workflowGate
  d.spec.schedules.values.forM d.scheduleGate

/-- Approve an application that passes all gates; it is handed on as it is. -/
def approve (d : Deployable) : Gate Deployable := do
  d.passGates
  return d

/-- The gates as a trace names them. -/
def describeGates : String :=
  "ApplicationVerificationStage \x7b registry: " ++ VerifierRegistry.describeEmpty ++ ", .. \x7d"

end Deployable

end Deployment
