import Deployment.Deploy.Plant
import Deployment.Record
import Deployment.Storage.Writer

/-! # Uploads

* **`Upload`** — an upload from its registration to its end.
* **`Upload.reply`**, **`Upload.record`**, **`Upload.job`** — its status, what is kept of it, and
  the deployment it asks for. -/

namespace Deployment

/-- An upload from its registration to its end. -/
structure Upload where
  resource : ResourceId
  account : Account
  /-- The path of the archive. -/
  archive : String
  status : Status := .registered
  /-- The owner that is asked for. -/
  owner : Option Principal := none
  /-- Who registered the upload. -/
  requester : String
  /-- Why the upload failed. -/
  error : Option String := none
  createdAt : Timestamp
  /-- The archive while parts of it come. -/
  writer : Option Writer := none
  deriving DecidableEq, Repr

namespace Upload

/-- The answer to the question how far the upload has come. -/
def reply (u : Upload) : StatusReply := .ofOutcome u.status u.error

/-- What is kept of the upload. -/
def record (u : Upload) (now : Timestamp) : SessionRecord where
  resource := u.resource
  account := u.account
  archive := u.archive
  status := u.status
  error := u.error
  createdAt := u.createdAt
  updatedAt := now

/-- The deployment that the upload asks for. -/
def job (u : Upload) : DeployJob := ⟨u.account, u.archive, u.owner, u.requester⟩

/-- Write a part of the archive; the first part opens it. -/
def write (u : Upload) (bytes : List UInt8) : Files Writer := do
  let w ← match u.writer with
    | some w => pure w
    | none => Writer.open u.archive
  w.append bytes

end Upload

end Deployment
