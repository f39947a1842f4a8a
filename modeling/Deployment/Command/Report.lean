import Deployment.Resource
import Deployment.Session.Fault
import Deployment.Verification.Admission

/-! # What the program says

* **`CommandFault`** — why a command failed.
* **`DeployOutcome`** — how an upload has ended.
* **`Report`** — the exit code and the text of an invocation.
* **`showOutcome`**, **`showStatus`**, **`showVerified`** — the answers, as lines or as JSON. -/

namespace Deployment

/-- Why a command failed. -/
inductive CommandFault where
  | service (fault : ServiceFault)
  | verification (fault : VerificationFault)
  /-- The file that is to be uploaded cannot be read. -/
  | unreadable (path : String) (fault : StorageFault)
  /-- The path of the file that is to be uploaded ends in no name. -/
  | unnamed (path : String)
  /-- The deployment has failed. -/
  | incomplete (reason : String)
  /-- The program died, for its pool could not be started. -/
  | died

namespace CommandFault

/-- The text of a fault. -/
def message : CommandFault → String
  | .service f => f.message
  | .verification f => f.message
  | .unreadable path _ => "reading " ++ path
  | .unnamed path => "archive path " ++ path ++ " has no file name"
  | .incomplete reason => "deployment did not complete: " ++ reason
  | .died => "the pool cannot be started"

/-- The texts of the faults behind a fault. -/
def causes : CommandFault → List String
  | .service f => f.causes
  | .verification f => f.causes
  | .unreadable _ f => [f.message]
  | .unnamed _ => []
  | .incomplete _ => []
  | .died => []

/-- A fault with all that is behind it. -/
def text (f : CommandFault) : String := ": ".intercalate (f.message :: f.causes)

/-- The exit code of a command that failed; a program that died has one of its own (a build that
aborts is ended by a signal instead). -/
def code : CommandFault → Nat
  | .died => 101
  | _ => 1

/-- The line that tells of a fault; a program that died does not come to tell. -/
def line? : CommandFault → Option String
  | .died => none
  | f => some ("Error: " ++ f.text)

/-- No command that failed exits as one that has succeeded. -/
theorem code_ne_zero (f : CommandFault) : f.code ≠ 0 := by
  cases f <;> exact Nat.succ_ne_zero _

end CommandFault

/-- How an upload has ended. -/
structure DeployOutcome where
  resource : ResourceId
  status : StatusReply
  programs : List (ProgramKind × String) := []

/-- What an invocation says. -/
structure Report where
  code : Nat := 0
  output : String := ""
  error : Option String := none
  deriving DecidableEq, Repr

/-- Lines, each with its end. -/
def showLines (lines : List String) : String := String.join (lines.map (· ++ "\n"))

/-- A JSON document with its members in order, indented. -/
def showJson (v : Json) : String := v.sorted.pretty ++ "\n"

/-- The line of a status. -/
def statusLine (r : StatusReply) : String :=
  "Status: " ++ r.status.name ++ " (" ++ toString r.code ++ ") " ++ r.message

/-- The members of a status. -/
def statusMembers (r : StatusReply) : List (String × Json) :=
  [("code", .number r.code), ("status", .text r.status.name), ("message", .text r.message)]

/-- A status. -/
def showStatus (json : Bool) (r : StatusReply) : String :=
  if json then showJson (.object (statusMembers r)) else showLines [statusLine r]

/-- A program as a JSON object. -/
def programJson (p : ProgramKind × String) : Json :=
  .object [("type", .text p.1.name), ("name", .text p.2)]

/-- How an upload has ended. -/
def showOutcome (json : Bool) (o : DeployOutcome) : String :=
  if json then
    showJson (.object (("resource", ResourceId.form.write o.resource) :: statusMembers o.status ++
      [("programs", .list (o.programs.map programJson))]))
  else
    showLines (
      ["Resource: " ++ o.resource.account.name ++ "/" ++ o.resource.upload.text,
        statusLine o.status] ++
      o.programs.map fun p => "  " ++ p.1.text ++ " " ++ p.2)

/-- An application that may be deployed. -/
def showVerified (json : Bool) (d : Deployable) : String :=
  if json then
    showJson (.object
      [("application", ApplicationId.form.write d.id),
        ("programs", .list (d.spec.programNames.map .text)),
        ("datasets", .list (d.spec.datasets.keys.map .text))])
  else showLines (("Verified " ++ d.id.text) :: d.spec.programNames.map ("  " ++ ·))

end Deployment
