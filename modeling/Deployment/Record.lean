import Deployment.Resource
import Deployment.Status
import Deployment.Storage.FileTree
import Deployment.Time.Reading

/-! # Records of uploads

What is kept of an upload when it has ended, so that its status can be told later.

* **`SessionRecord`** — the record of an upload.
* **`RecordStore`** — where records are kept: one file in the directory of each account.
* **`RecordStore.save`**, **`RecordStore.load`** — a record to its file and back. -/

namespace Deployment

/-- The record of an upload that has ended. -/
structure SessionRecord where
  resource : ResourceId
  account : Account
  archive : String
  status : Status
  /-- Why the upload failed. -/
  error : Option String := none
  createdAt : Timestamp
  updatedAt : Timestamp
  deriving DecidableEq, Repr

namespace SessionRecord

/-- The answer to the question how far the upload has come. -/
def reply (r : SessionRecord) : StatusReply := .ofOutcome r.status r.error

/-- The start of all time, which stands for a time that is not known yet. -/
def epoch : Timestamp := ⟨0, 0, 0⟩

/-- A record as a JSON object. -/
def form : Json.Form SessionRecord :=
  .record "struct SessionRecord"
    [.of "resource_identifier" true ResourceId.form (·.resource)
       (fun v r => { r with resource := v }),
     .of "account_id" true Account.form (·.account) (fun v r => { r with account := v }),
     .of "archive_location" true Path.form (·.archive) (fun v r => { r with archive := v }),
     .of "status" true Status.form (·.status) (fun v r => { r with status := v }),
     .optional "error" .text (·.error) (fun v r => { r with error := v }),
     .of "created_at" true Timestamp.form (·.createdAt) (fun v r => { r with createdAt := v }),
     .of "updated_at" true Timestamp.form (·.updatedAt) (fun v r => { r with updatedAt := v })]
    { resource := ⟨⟨""⟩, "", ⟨0⟩, 1⟩, account := ⟨""⟩, archive := "", status := .unknown,
      createdAt := epoch, updatedAt := epoch }

end SessionRecord

/-- Why a record could not be saved or loaded. -/
inductive RecordFault where
  | storage (path : String) (fault : StorageFault)
  | invalidAccount (account : Account)
  | malformed (fault : Json.Fault)

namespace RecordFault

/-- The kind of a fault. -/
def kind : RecordFault → String
  | .storage _ _ => "Io"
  | .invalidAccount _ => "InvalidAccount"
  | .malformed _ => "Malformed"

/-- The text of a fault. -/
def message : RecordFault → String
  | .storage path f => "session record I/O error at " ++ path ++ ": " ++ f.message
  | .invalidAccount a => "invalid account id '" ++ a.name ++ "'"
  | .malformed f => "session record is malformed: " ++ f.message

/-- The texts of the faults behind a fault. -/
def causes : RecordFault → List String
  | .storage _ f => [f.message]
  | .invalidAccount _ => []
  | .malformed f => [f.message]

end RecordFault

/-- Where records are kept. -/
structure RecordStore where
  /-- The directory that holds the directories of the accounts. -/
  root : String
  /-- The name of the file in the directory of an account. -/
  fileName : String
  /-- Nothing can be saved. -/
  saveDown : Bool := false
  /-- Nothing can be loaded. -/
  loadDown : Bool := false
  deriving Repr

namespace RecordStore

/-- The path that a store which is down gives for its records. -/
def nowhere : String := "unavailable"

/-- The file of the record of an account. -/
def path (s : RecordStore) (a : Account) : Except RecordFault String :=
  if a.isValid then .ok (Path.join (Path.join s.root a.name) s.fileName)
  else .error (.invalidAccount a)

/-- The file that a record is written to before it takes the place of the one that is there. -/
def pathBeside (s : RecordStore) (path : String) : String :=
  Path.withFileName path (Path.besideName s.fileName)

/-- A change of files whose faults are those of a record. -/
abbrev Change (α : Type) := EStateM RecordFault FileTree α

/-- A change of files, with a path that its faults are about. -/
def about {α : Type} (path : String) (change : Files α) : Change α :=
  change.adaptExcept (.storage path)

/-- Save a record, in place of the one that its account has. -/
def save (s : RecordStore) (r : SessionRecord) : Change Unit := do
  if s.saveDown then throw (.storage nowhere (.down "save"))
  let path ← MonadExcept.ofExcept (s.path r.account)
  match Path.parent? path with
  | some parent => about parent (Files.createDirectories parent)
  | none => pure ()
  let beside := s.pathBeside path
  about beside (Files.write beside (Utf8.encode (SessionRecord.form.pretty r)))
  about path (Files.rename beside path)

/-- The record of an account, if it has one. -/
def load (s : RecordStore) (t : FileTree) (a : Account) :
    Except RecordFault (Option SessionRecord) := do
  if s.loadDown then throw (.storage nowhere (.down "load"))
  let path ← s.path a
  match t.read path with
  | .ok bytes => match SessionRecord.form.parse bytes with
    | .ok r => return some r
    | .error f => throw (.malformed f)
  | .error .notFound => return none
  | .error f => throw (.storage path f)

end RecordStore

end Deployment
