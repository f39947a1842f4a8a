import Deployment.Account
import Deployment.Archive
import Deployment.Deploy.Fault
import Deployment.Deploy.Registration

/-! # Deployments

A deployment loads an archive, admits the application in it, and registers it. The first fault
ends it.

* **`DeployJob`** — a deployment that was asked for.
* **`DeployJob.load`**, **`Deployable.verify`**, **`Deployable.store`** — its three stages.
* **`DeployJob.run`** — all of them. -/

namespace Deployment

/-- A deployment that was asked for. -/
structure DeployJob where
  account : Account
  archive : String
  /-- The owner that is asked for. -/
  owner : Option Principal := none
  /-- Who asks for the deployment. -/
  requester : String
  deriving DecidableEq, Repr

/-- A stage of a deployment that may change the metadata. -/
abbrev Deploying (α : Type) := EStateM DeployFault Metadata α

/-- The result of a deployment. -/
abbrev DeployResult := Except DeployFault Deployed

/-- The stages of a deployment. -/
inductive DeployStage where
  | load
  | verify
  | register
  deriving DecidableEq, Repr

namespace DeployStage

/-- Every stage, in order. -/
def all : List DeployStage := [.load, .verify, .register]

/-- The name of a stage. -/
def name : DeployStage → String
  | .load => "load-archive"
  | .verify => "verify"
  | .register => "register"

/-- The stages as a trace names them. -/
def describeAll : String :=
  "DeploymentPipeline \x7b stages: [" ++
    ", ".intercalate (all.map fun s => Text.quoted s.name) ++ "] \x7d"

end DeployStage

/-- The descriptor in the archive at a path. -/
def readArchive (t : FileTree) (path : String) : Except DeployFault ApplicationSpec :=
  match t.read path with
  | .error f => .error (.archive path f.message)
  | .ok bytes => match ApplicationSpec.ofArchive path bytes with
    | .error f => .error (.archive path f.message)
    | .ok spec => .ok spec

/-- Load the archive: the application is deployed into the namespace of the account. -/
def DeployJob.load (job : DeployJob) (t : FileTree) : Except DeployFault Deployable := do
  let spec ← readArchive t job.archive
  return ⟨⟨job.account.name, spec.name, spec.version⟩, spec, job.archive, job.owner, job.requester⟩

/-- Pass the gates. -/
def Deployable.verify (d : Deployable) : Deploying Deployable := fun m =>
  match d.approve ⟨m, .empty⟩ with
  | .ok d g => .ok d g.metadata
  | .error f g => .error (.verification f) g.metadata

/-- Register the application. -/
def Deployable.store (d : Deployable) : Deploying Deployed :=
  EStateM.adaptExcept .registration d.register

/-- Run a deployment. -/
def DeployJob.run (job : DeployJob) (t : FileTree) : Deploying Deployed := do
  let d ← MonadExcept.ofExcept (job.load t)
  let d ← d.verify
  d.store

end Deployment
