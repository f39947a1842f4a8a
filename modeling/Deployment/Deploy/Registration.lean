import Deployment.Verification.Admission

/-! # Registration of applications

An application that was admitted is stored with its datasets and its owner.

* **`Deployed`** — an application that was registered.
* **`Deployable.register`** — store an application. -/

namespace Deployment

/-- An application that was registered. -/
structure Deployed where
  id : ApplicationId
  spec : ApplicationSpec
  archive : String
  /-- Everything that runs, by kind and by the name it is declared under. -/
  programs : List (ProgramKind × String)
  deriving Repr

namespace Deployable

/-- Make the owner that is asked for the owner of an entity. -/
def own (d : Deployable) (entity : EntityId) : Metadata.Change Unit := do
  match d.owner with
  | some o => Metadata.setOwner entity o
  | none => pure ()

/-- Create a declared dataset; one that exists stays as it is, with its owner. -/
def createDataset (d : Deployable) (spec : DatasetSpec) : Metadata.Change Unit := fun m =>
  let id := d.id.dataset spec.name
  match Metadata.addDataset id spec.toInstance d.owner m with
  | .ok () m => d.own (.dataset id) m
  | .error (.alreadyExists _) m => .ok () m
  | .error f m => .error f m

/-- The programs of the application by kind and name. -/
def programList (d : Deployable) : List (ProgramKind × String) :=
  d.spec.programs.map fun p => (p.2.kind, p.1)

/-- Store the application. -/
def register (d : Deployable) : Metadata.Change Deployed := do
  d.spec.datasets.values.forM d.createDataset
  let _previous ← Metadata.application d.id
  Metadata.addApplication ⟨d.id, d.spec, d.archive, d.owner⟩
  d.own (.application d.id.ref)
  return ⟨d.id, d.spec, d.archive, d.programList⟩

end Deployable

end Deployment
