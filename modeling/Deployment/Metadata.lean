import Deployment.Data.Keyed
import Deployment.Descriptor.Application
import Deployment.Identifier
import Deployment.Principal

/-! # Metadata

What is known of everything that was deployed: the applications, the datasets, and who owns them.

* **`Metadata`** — all of it as one value.
* **`Metadata.Request`** — the questions and orders that the metadata can be unavailable for.
* **`StoreFault`** — why a request failed.
* **`Metadata.Change α`** — a request: it gives an `α` or a fault, and may change the metadata. -/

namespace Deployment

/-- A version of an application that was deployed. -/
structure StoredApplication where
  id : ApplicationId
  spec : ApplicationSpec
  /-- The path of the archive that it was deployed from. -/
  archive : String
  owner : Option Principal
  deriving Repr

/-- A dataset that was created, with the owner it was created for. -/
structure StoredDataset where
  spec : DatasetInstance
  owner : Option Principal
  deriving DecidableEq, Repr

/-- Why a request to the metadata failed. -/
inductive StoreFault where
  | unavailable (what : String)
  | unauthorized (principal : String) (entity : EntityId)
  | alreadyExists (entity : EntityId)
  deriving DecidableEq, Repr

/-- The kind of a fault. -/
def StoreFault.kind : StoreFault → String
  | .unavailable _ => "Unavailable"
  | .unauthorized _ _ => "Unauthorized"
  | .alreadyExists _ => "AlreadyExists"

/-- The text of a fault. -/
def StoreFault.message : StoreFault → String
  | .unavailable what => "backend unavailable: " ++ what
  | .unauthorized principal entity =>
    "principal '" ++ principal ++ "' is not authorized for " ++ entity.text
  | .alreadyExists entity => entity.text ++ " already exists"

/-- The requests that the metadata can be unavailable for. -/
inductive Metadata.Request where
  | versions
  | addApplication
  | application
  | dataset
  | addDataset
  | owner
  | setOwner
  | impersonation
  deriving DecidableEq, Repr

namespace Metadata.Request

/-- Every request. -/
def all : List Request :=
  [.versions, .addApplication, .application, .dataset, .addDataset, .owner, .setOwner,
    .impersonation]

/-- The name of a request. -/
def name : Request → String
  | .versions => "all_app_versions"
  | .addApplication => "add_application"
  | .application => "application"
  | .dataset => "dataset_spec"
  | .addDataset => "add_instance"
  | .owner => "owner"
  | .setOwner => "set_owner"
  | .impersonation => "impersonation_principal"

/-- The request of a name. -/
def ofName? (name : String) : Option Request := all.find? fun r => r.name = name

end Metadata.Request

/-- A look that someone took at a dataset. -/
structure Lookup where
  dataset : DatasetId
  principal : String
  deriving DecidableEq, Repr

/-- What is known of everything that was deployed. -/
structure Metadata where
  applications : Keyed ApplicationId StoredApplication := []
  datasets : Keyed DatasetId StoredDataset := []
  owners : Keyed EntityId Principal := []
  /-- Who acts for the deployments of a namespace that name no owner. -/
  impersonation : Keyed String Principal := []
  /-- The one principal who may look at datasets; without one everybody may. -/
  restrictedTo : Option String := none
  /-- Every look at a dataset, the oldest first. -/
  lookups : List Lookup := []
  /-- The requests that are not available. -/
  down : List Metadata.Request := []
  deriving Repr

namespace Metadata

/-- Nothing was deployed. -/
def empty : Metadata := {}

/-- A request to the metadata. What was changed before a fault stays so. -/
abbrev Change (α : Type) := EStateM StoreFault Metadata α

/-- Fail if a request is not available. -/
def available (r : Request) : Change Unit := do
  if (← get).down.contains r then throw (.unavailable r.name)

/-! ## Applications -/

/-- The versions of an application, in the order of their names. -/
def versions (ref : ApplicationRef) : Change (List ApplicationId) := do
  available .versions
  let ids := ((← get).applications.map (·.1)).filter fun id => id.ref = ref
  return ids.mergeSort fun a b => a.version ≤ b.version

/-- A version of an application, if it was deployed. -/
def application (id : ApplicationId) : Change (Option StoredApplication) := do
  available .application
  return Keyed.find? id (← get).applications

/-- Store a version of an application, over the one that is there. -/
def addApplication (a : StoredApplication) : Change Unit := do
  available .addApplication
  modify fun m => { m with applications := Keyed.put a.id a m.applications }

/-! ## Datasets -/

/-- A dataset exists. -/
def hasDataset (m : Metadata) (id : DatasetId) : Bool := Keyed.contains id m.datasets

/-- Look at a dataset as someone; the look is noted, allowed or not. -/
def dataset (id : DatasetId) (principal : String) : Change (Option DatasetInstance) := do
  available .dataset
  modify fun m => { m with lookups := m.lookups ++ [⟨id, principal⟩] }
  let m ← get
  if m.restrictedTo.any (· ≠ principal) then throw (.unauthorized principal (.dataset id))
  return (Keyed.find? id m.datasets).map (·.spec)

/-- Create a dataset that does not exist. -/
def addDataset (id : DatasetId) (spec : DatasetInstance) (owner : Option Principal) :
    Change Unit := do
  available .addDataset
  if (← get).hasDataset id then throw (.alreadyExists (.dataset id))
  modify fun m => { m with datasets := Keyed.put id ⟨spec, owner⟩ m.datasets }

/-! ## Owners -/

/-- The owner of an entity. -/
def owner (entity : EntityId) : Change (Option Principal) := do
  available .owner
  return Keyed.find? entity (← get).owners

/-- Make someone the owner of an entity. -/
def setOwner (entity : EntityId) (owner : Principal) : Change Unit := do
  available .setOwner
  modify fun m => { m with owners := Keyed.put entity owner m.owners }

/-- Who acts for a namespace. -/
def impersonationPrincipal (scope : String) : Change (Option Principal) := do
  available .impersonation
  return Keyed.find? scope (← get).impersonation

end Metadata

end Deployment
