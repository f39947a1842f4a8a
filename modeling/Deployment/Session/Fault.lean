import Deployment.Deploy.Fault
import Deployment.Record
import Deployment.Settings

/-! # Faults of requests

* **`SessionFault`** — why a request about an upload failed.
* **`ServiceFault`** — why any request failed. -/

namespace Deployment

/-- Why a request about an upload failed. -/
inductive SessionFault where
  /-- The account has an upload already. -/
  | conflict (account : Account)
  | noSession (account : Account)
  | badRequest (reason : String)
  | storage (account : Account) (fault : StorageFault)
  /-- The deployment was not accepted. -/
  | deploy (fault : DeployFault)
  | record (fault : RecordFault)

namespace SessionFault

/-- The kind of a fault, with the kind of the fault behind it. -/
def kind : SessionFault → String
  | .conflict _ => "Conflict"
  | .noSession _ => "NoSession"
  | .badRequest _ => "BadRequest"
  | .storage _ _ => "Storage"
  | .deploy f => "Deploy." ++ f.kind
  | .record f => "Record." ++ f.kind

/-- The text of a fault. -/
def message : SessionFault → String
  | .conflict a => "an upload is already in progress for account " ++ a.name
  | .noSession a => "no upload session in progress for account " ++ a.name
  | .badRequest reason => "bad request: " ++ reason
  | .storage a f => "storage error for account " ++ a.name ++ ": " ++ f.message
  | .deploy f => "deploy could not be started: " ++ f.message
  | .record f => f.message

/-- The texts of the faults behind a fault. -/
def causes : SessionFault → List String
  | .storage _ f => [f.message]
  | .deploy f => f.message :: f.causes
  | .record f => f.causes
  | _ => []

/-- The request is one that may not be made. -/
def isClientFault : SessionFault → Bool
  | .conflict _ => true
  | .noSession _ => true
  | .badRequest _ => true
  | _ => false

end SessionFault

/-- Why any request failed. -/
inductive ServiceFault where
  | session (fault : SessionFault)
  | deploy (fault : DeployFault)
  | record (fault : RecordFault)
  | settings (fault : SettingsFault)

namespace ServiceFault

/-- The kind of a fault, with the kind of the fault behind it. -/
def kind : ServiceFault → String
  | .session f => "Session." ++ f.kind
  | .deploy f => "Deploy." ++ f.kind
  | .record f => "Record." ++ f.kind
  | .settings f => "Config." ++ f.kind

/-- The text of a fault. -/
def message : ServiceFault → String
  | .session f => f.message
  | .deploy f => f.message
  | .record f => f.message
  | .settings f => f.message

/-- The texts of the faults behind a fault. -/
def causes : ServiceFault → List String
  | .session f => f.causes
  | .deploy f => f.causes
  | .record f => f.causes
  | .settings f => f.causes

/-- The request is one that may not be made. -/
def isClientFault : ServiceFault → Bool
  | .session f => f.isClientFault
  | _ => false

end ServiceFault

end Deployment
