import Deployment.Session.Fault
import Deployment.Session.Upload

/-! # Uploads of all accounts

An account has at most one upload at a time. A request finds the upload of its account, and works
on the upload that it found; the two are steps of their own, so that requests of one account can
come between each other. Each operation is given the time, and each new upload its identity.

* **`SessionManager`** — the uploads, with the plant that deploys them.
* **`SessionManager.register`**, **`.append`**, **`.finalize`**, **`.status`** — the requests.
* **`SessionManager.complete`** — a deployment has ended. -/

namespace Deployment

/-- What is handed out for a deployment that was accepted. -/
structure DeployHandle where
  resource : ResourceId
  job : Nat
  deriving DecidableEq, Repr

/-- The uploads of all accounts. -/
structure SessionManager where
  settings : Settings
  records : RecordStore
  plant : Plant
  /-- Every upload that was ever registered; it is known by its position. -/
  uploads : List Upload := []
  /-- The uploads that are in progress. -/
  live : Keyed Account Nat := []
  /-- The jobs whose end was not noted in their uploads. -/
  pending : List Ticket := []

namespace SessionManager

/-- The pool of a manager can be started with the settings. -/
def canStart (s : Settings) : Bool := Pool.canStart s.workers s.queueCapacity

/-- A manager without uploads, over the files and the metadata that there are. -/
def start (s : Settings) (files : FileTree) (metadata : Metadata) : SessionManager where
  settings := s
  records := ⟨s.archiveDir, s.sessionFile, false, false⟩
  plant := ⟨files, metadata, .start s.workers s.queueCapacity⟩

/-- A manager without uploads in the place of this one, over the same files; no job that was
accepted runs any more. -/
def restart (m : SessionManager) (metadata : Metadata) : SessionManager :=
  { start m.settings m.plant.files metadata with records := m.records }

/-- A request. What was changed before a fault stays so. -/
abbrev Request (α : Type) := EStateM SessionFault SessionManager α

/-! ## The table of uploads -/

/-- The upload that an account has in progress. -/
def find? (m : SessionManager) (a : Account) : Option Nat := Keyed.find? a m.live

/-- The account has an upload in progress. -/
def hasSession (m : SessionManager) (a : Account) : Bool := (m.find? a).isSome

/-- How many uploads are in progress. -/
def liveCount (m : SessionManager) : Nat := m.live.length

/-- The upload that the account has in progress has to be there. -/
def handle (a : Account) : Request Nat := do
  match (← get).find? a with
  | some n => return n
  | none => throw (.noSession a)

/-- Change an upload. -/
def update (n : Nat) (change : Upload → Upload) (m : SessionManager) : SessionManager :=
  { m with uploads := m.uploads.modify n change }

/-- The account has no upload in progress any more. -/
def unlink (a : Account) (m : SessionManager) : SessionManager :=
  { m with live := Keyed.erase a m.live }

/-- The upload of a number, as a request of the account works on it. -/
def upload (n : Nat) (a : Account) : Request Upload := do
  match (← get).uploads[n]? with
  | some u => return u
  | none => throw (.noSession a)

/-- A change of files; its fault is the result. -/
def attempt {α : Type} (change : Files α) : Request (Except StorageFault α) := fun m =>
  match change m.plant.files with
  | .ok a t => .ok (.ok a) { m with plant := { m.plant with files := t } }
  | .error f t => .ok (.error f) { m with plant := { m.plant with files := t } }

/-- The status may change, or the request is refused. -/
def allow (s t : Status) : Request Unit :=
  if s.allows t then pure () else throw (.badRequest (s.refusal t))

/-! ## Ends of an upload -/

/-- Save the record of an upload; if it cannot be saved, nobody is told. -/
def persist (n : Nat) (now : Timestamp) (m : SessionManager) : SessionManager :=
  match m.uploads[n]? with
  | none => m
  | some u => match m.records.save (u.record now) m.plant.files with
    | .ok _ t => { m with plant := { m.plant with files := t } }
    | .error _ t => { m with plant := { m.plant with files := t } }

/-- Delete the archive of an upload, if it is there. -/
def removeArchive (u : Upload) : Request Unit := discard (attempt (Files.remove u.archive))

/-- Throw an upload away, with the part of its archive that came. -/
def abandon (n : Nat) (u : Upload) : Request Unit := do
  modify (update n fun u => { u with writer := none })
  modify (unlink u.account)
  removeArchive u

/-- An upload fails before its deployment was accepted. -/
def failNow (n : Nat) (u : Upload) (reason : String) (now : Timestamp) : Request Unit := do
  modify (update n fun u => { u with status := .failed, error := some reason })
  modify (persist n now)
  modify (unlink u.account)

/-! ## Registration -/

/-- The upload that a registration begins. -/
def newUpload (m : SessionManager) (a : Account) (info : ResourceInfo) (requester : String)
    (id : Ulid) (now : Timestamp) : Upload where
  resource := ⟨a, info.application, id, 1⟩
  account := a
  archive := Path.join (m.settings.accountDirectory a) info.fileName
  owner := info.owner
  requester := requester
  createdAt := now

/-- The request for an account that has no valid name is refused. -/
def requireValid (a : Account) : Request Unit :=
  if a.isValid then pure () else throw (.badRequest ("invalid account id '" ++ a.name ++ "'"))

/-- A registration checks its names and enters the upload, unless the account has one. -/
def enter (a : Account) (info : ResourceInfo) (requester : String) (id : Ulid)
    (now : Timestamp) : Request Upload := do
  requireValid a
  let m ← get
  if !Path.isPlainName info.fileName || m.settings.isReserved info.fileName then
    throw (.badRequest ("invalid archive file name '" ++ info.fileName ++ "'"))
  if m.hasSession a then throw (.conflict a)
  let u := m.newUpload a info requester id now
  modify fun m =>
    { m with uploads := m.uploads ++ [u], live := Keyed.put a m.uploads.length m.live }
  return u

/-- A registration makes the directory of the account; without it there is no upload. -/
def prepare (a : Account) : Request Unit := do
  let dir := (← get).settings.accountDirectory a
  match ← attempt (Files.createDirectories dir) with
  | .ok () => pure ()
  | .error f =>
    modify (unlink a)
    throw (.storage a f)

/-- Register an upload. -/
def register (a : Account) (info : ResourceInfo) (requester : String) (id : Ulid)
    (now : Timestamp) : Request ResourceId := do
  let u ← enter a info requester id now
  prepare a
  return u.resource

/-! ## Parts of the archive -/

/-- Append a part to the archive of the upload of a number. -/
def appendTo (n : Nat) (a : Account) (bytes : List UInt8) : Request Unit := do
  let u ← upload n a
  allow u.status .uploading
  if bytes.isEmpty then
    abandon n u
    throw (.badRequest "invalid chunk received")
  match ← attempt (u.write bytes) with
  | .ok w => modify (update n fun u => { u with writer := some w, status := .uploading })
  | .error f =>
    abandon n u
    throw (.storage a f)

/-- Append a part to the archive of the account's upload. -/
def append (a : Account) (bytes : List UInt8) : Request Unit := do
  appendTo (← handle a) a bytes

/-! ## Deployment -/

/-- Ask for the deployment of an upload; a refusal is the result. -/
def submit (job : DeployJob) : Request (Except DeployFault Nat) := fun m =>
  match m.plant.submit job with
  | .ok number p => .ok (.ok number) { m with plant := p }
  | .error f p => .ok (.error f) { m with plant := p }

/-- Ask for the deployment of an upload, which fails if it is refused. -/
def requestDeploy (n : Nat) (u : Upload) (now : Timestamp) : Request DeployHandle := do
  match ← submit u.job with
  | .ok number =>
    modify fun m => { m with pending := m.pending ++ [⟨number, u.job⟩] }
    return ⟨u.resource, number⟩
  | .error f =>
    failNow n u f.message now
    throw (.deploy f)

/-- Close the archive of the upload of a number, and ask for its deployment. -/
def finalizeAt (n : Nat) (a : Account) (now : Timestamp) : Request DeployHandle := do
  let u ← upload n a
  allow u.status .verifying
  modify (update n fun u => { u with status := .verifying, writer := none })
  match u.writer with
  | none => pure ()
  | some w => match ← attempt w.close with
    | .ok () => pure ()
    | .error f =>
      failNow n u f.message now
      throw (.storage a f)
  requestDeploy n u now

/-- Close the archive of the account's upload, and ask for its deployment. -/
def finalize (a : Account) (now : Timestamp) : Request DeployHandle := do
  finalizeAt (← handle a) a now

/-- The status in which a deployment ends, and why it failed. -/
def outcome : DeployResult → Status × Option String
  | .ok _ => (.deployed, none)
  | .error f => (.failed, some f.message)

/-- Note the end of its deployment in the upload of a number. -/
def completeAt (n : Nat) (a : Account) (result : DeployResult) (now : Timestamp)
    (m : SessionManager) : SessionManager :=
  let (status, error) := outcome result
  unlink a (persist n now (update n (fun u => { u with status := status, error := error }) m))

/-- Note the end of its deployment in the account's upload. -/
def complete (a : Account) (result : DeployResult) (now : Timestamp) (m : SessionManager) :
    SessionManager :=
  match m.find? a with
  | some n => completeAt n a result now m
  | none => m

/-- The result of a job that has ended. -/
def ended? (m : SessionManager) (job : Nat) : Option DeployResult :=
  match m.plant.pool.state job with
  | .pending => none
  | .finished r => some r
  | .lost => some (.error .cancelled)

/-- Note the end of one deployment, if it has ended. -/
def noteEnd (now : Timestamp) (m : SessionManager) (t : Ticket) : SessionManager :=
  match m.ended? t.number with
  | none => m
  | some r => { complete t.job.account r now m with pending := m.pending.filter (· ≠ t) }

/-- Note the end of all deployments that have ended. -/
def noteEnds (now : Timestamp) (m : SessionManager) : SessionManager :=
  m.pending.foldl (noteEnd now) m

/-- The result of a deployment, once its end was noted. -/
def result? (m : SessionManager) (h : DeployHandle) : Option DeployResult :=
  if m.pending.any fun t => t.number = h.job then none else m.ended? h.job

/-- Everything that can happen without a worker being done with a job happens. -/
def settle (now : Timestamp) (m : SessionManager) : SessionManager :=
  noteEnds now { m with plant := m.plant.takeAll }

/-- The worker that has a job runs it, and everything that follows happens. -/
def run (job : Nat) (now : Timestamp) (m : SessionManager) : SessionManager :=
  settle now { m with plant := m.plant.run job }

/-- A worker runs the oldest of the jobs that are worked on, and everything that follows happens. -/
def runNext (now : Timestamp) (m : SessionManager) : SessionManager :=
  settle now { m with plant := m.plant.runNext }

/-- All jobs that were accepted are run. -/
def runAll (now : Timestamp) (m : SessionManager) : SessionManager :=
  Nat.repeat (runNext now) m.plant.pool.unfinished.length m

/-- The worker that has a job dies over it, and everything that follows happens. -/
def crash (job : Nat) (now : Timestamp) (m : SessionManager) : SessionManager :=
  settle now { m with plant := m.plant.crash job }

/-- Accept no other deployment, and run those that were accepted. -/
def shutdown (now : Timestamp) (m : SessionManager) : SessionManager :=
  runAll now { m with plant := { m.plant with pool := m.plant.pool.close } }

/-! ## Status -/

/-- How far the account's upload has come: from the upload in progress, else from the record of
the last one. -/
def status (m : SessionManager) (a : Account) : Except SessionFault StatusReply := do
  if !a.isValid then throw (.badRequest ("invalid account id '" ++ a.name ++ "'"))
  match (m.find? a).bind (m.uploads[·]?) with
  | some u => return u.reply
  | none => match m.records.load m.plant.files a with
    | .ok (some r) => return r.reply
    | .ok none => return .unknown
    | .error f => throw (.record f)

/-- The manager as a trace names it. -/
def describe (m : SessionManager) : String :=
  "SessionManager \x7b archive_dir: " ++ Text.quoted m.settings.archiveDir ++
    ", live_sessions: " ++ toString m.liveCount ++ ", .. \x7d"

end SessionManager

end Deployment
