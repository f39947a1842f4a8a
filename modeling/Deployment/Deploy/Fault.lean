import Deployment.Verification.Fault

/-! # Faults of deployments

* **`DeployFault`** — why an application was not deployed. -/

namespace Deployment

/-- Why an application was not deployed. -/
inductive DeployFault where
  /-- The archive cannot be read, in the words of its reader. -/
  | archive (path reason : String)
  | verification (fault : VerificationFault)
  | registration (fault : StoreFault)
  /-- So many deployments wait that no other may. -/
  | poolExhausted (waiting : Nat)
  | poolShutdown
  /-- The deployment was lost before it had a result. -/
  | cancelled
  deriving DecidableEq, Repr

namespace DeployFault

/-- The kind of a fault, with the kind of the fault behind it. -/
def kind : DeployFault → String
  | .archive _ _ => "Archive"
  | .verification f => "Verification." ++ f.kind
  | .registration f => "Registration." ++ f.kind
  | .poolExhausted _ => "PoolExhausted"
  | .poolShutdown => "PoolShutdown"
  | .cancelled => "Cancelled"

/-- The text of a fault. -/
def message : DeployFault → String
  | .archive path reason => "cannot load archive " ++ path ++ ": " ++ reason
  | .verification f => f.message
  | .registration f => "registration failed: " ++ f.message
  | .poolExhausted waiting => "deploy queue is full (" ++ toString waiting ++ " jobs waiting)"
  | .poolShutdown => "deploy pool is shut down"
  | .cancelled => "deploy was cancelled before completion"

/-- The texts of the faults behind a fault. -/
def causes : DeployFault → List String
  | .verification f => f.message :: f.causes
  | .registration f => [f.message]
  | _ => []

/-- The application was not admitted. -/
def isVerification : DeployFault → Bool
  | .verification _ => true
  | _ => false

end DeployFault

end Deployment
