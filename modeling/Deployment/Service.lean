import Deployment.Session.Manager

/-! # Requests with a token

Every request names the principal who asks. A request whose token names nobody is refused before
anything else happens.

* **`Service.init`**, **`Service.chunk`**, **`Service.deploy`**, **`Service.status`** — the
  requests. -/

namespace Deployment

/-- The version of the program. -/
def version : String := "0.1.0"

namespace Service

open SessionManager (Request)

/-- What is said of a token that names nobody. -/
def noToken : SessionFault := .badRequest "owner token is required"

/-- The token has to name somebody. -/
def check (t : Token) : Request Unit := if t.isBlank then throw noToken else pure ()

/-- Register an upload. -/
def init (t : Token) (info : ResourceInfo) (id : Ulid) (now : Timestamp) : Request ResourceId := do
  check t
  SessionManager.register info.account info t.principal id now

/-- Append a part to an archive; one that is left out counts as empty. -/
def chunk (t : Token) (r : ResourceId) (bytes : Option (List UInt8)) : Request Unit := do
  check t
  SessionManager.append r.account (bytes.getD [])

/-- Close an archive, and ask for its deployment. -/
def deploy (t : Token) (r : ResourceId) (now : Timestamp) : Request DeployHandle := do
  check t
  SessionManager.finalize r.account now

/-- How far an upload has come. -/
def status (t : Token) (r : ResourceId) (m : SessionManager) : Except SessionFault StatusReply :=
  if t.isBlank then .error noToken else m.status r.account

end Service

end Deployment
