import Deployment.Json.Form

/-! # The life of an upload

An upload is registered, receives its archive, is verified, and ends deployed or failed.

* **`Status`** — how far an upload has come.
* **`Status.next`** — the changes that are allowed; nothing else says which they are.
* **`StatusReply`** — what is answered to the question how far an upload has come. -/

namespace Deployment

/-- How far an upload has come. -/
inductive Status where
  /-- There is no upload. -/
  | unknown
  /-- There is an upload, and nothing of its archive. -/
  | registered
  /-- Parts of the archive have come. -/
  | uploading
  /-- The archive is complete and waits for its deployment. -/
  | verifying
  | failed
  | deployed
  deriving DecidableEq, Repr

namespace Status

/-- Every status, in the order of the codes. -/
def all : List Status := [.unknown, .registered, .uploading, .verifying, .failed, .deployed]

/-- The number of a status. -/
def code : Status → Nat
  | .unknown => 0
  | .registered => 1
  | .uploading => 2
  | .verifying => 3
  | .failed => 4
  | .deployed => 5

/-- The status of a number. -/
def ofCode? (code : Int) : Option Status := all.find? fun s => (s.code : Int) = code

/-- A status is told by its number. -/
@[simp] theorem ofCode?_code (s : Status) : ofCode? s.code = some s := by
  cases s <;> rfl

/-- The name of a status. -/
def name : Status → String
  | .unknown => "UNKNOWN"
  | .registered => "REGISTERED"
  | .uploading => "UPLOADING"
  | .verifying => "VERIFYING"
  | .failed => "FAILED"
  | .deployed => "DEPLOYED"

/-- What is said of a status when there is nothing else to say. -/
def message : Status → String
  | .unknown => "Not found"
  | .registered => "Registered"
  | .uploading => "Uploading"
  | .verifying => "Verifying"
  | .failed => "Failed"
  | .deployed => "Deployed"

/-- No other status follows. -/
def isTerminal (s : Status) : Bool := s = .deployed || s = .failed

/-- The upload may still be thrown away. -/
def isDiscardable (s : Status) : Bool := s = .registered || s = .uploading

/-- The statuses that may follow. -/
def next : Status → List Status
  | .unknown => [.registered]
  | .registered => [.uploading, .verifying]
  | .uploading => [.uploading, .verifying]
  | .verifying => [.deployed, .failed]
  | .failed => []
  | .deployed => []

/-- The one status may follow the other. -/
def allows (s t : Status) : Bool := s.next.contains t

/-- What is said of a change that is not allowed. -/
def refusal (s t : Status) : String := "session cannot move from " ++ s.name ++ " to " ++ t.name

/-- A status as a JSON string. -/
def form : Json.Form Status := .choice (all.map fun s => (s.name, s)) name

end Status

/-- What is answered to the question how far an upload has come. -/
structure StatusReply where
  status : Status
  message : String
  deriving DecidableEq, Repr

namespace StatusReply

/-- The plain answer for a status. -/
def of (s : Status) : StatusReply := ⟨s, s.message⟩

/-- The answer for a failure with a reason. -/
def failed (reason : String) : StatusReply := ⟨.failed, reason⟩

/-- The answer where there is no upload. -/
def unknown : StatusReply := .of .unknown

/-- The answer for a status and the reason that is kept beside it; only a failure tells it. -/
def ofOutcome (s : Status) (reason : Option String) : StatusReply :=
  match s, reason with
  | .failed, some reason => .failed reason
  | s, _ => .of s

/-- The number of the status. -/
def code (r : StatusReply) : Nat := r.status.code

/-- An answer as a JSON object. -/
def form : Json.Form StatusReply :=
  .record "struct DeploymentStatus"
    [.of "status" true Status.form (·.status) (fun v r => { r with status := v }),
     .of "message" true .text (·.message) (fun v r => { r with message := v })]
    ⟨.unknown, ""⟩

end StatusReply

end Deployment
