import Deployment.Account
import Deployment.Storage.FileTree
import Deployment.Toml.Document

/-! # Settings

What an installation can choose: where archives lie, how many deployments run side by side, and
how uploads are cut.

* **`Settings`** — the settings; each has a value that stands unless it is chosen.
* **`Settings.validate`** — whether settings can be used.
* **`Settings.ofToml`** — settings from the text of a file.
* **`Settings.accountDirectory`**, **`Settings.isReserved`** — what follows from settings. -/

namespace Deployment

/-- What an installation can choose. -/
structure Settings where
  /-- The directory that holds the directories of the accounts. -/
  archiveDir : String := "/tmp/archive"
  /-- The name of the file that holds the record of an account's last upload. -/
  sessionFile : String := "session.json"
  /-- How many deployments run side by side. -/
  workers : Nat := 4
  /-- How many deployments may wait. -/
  queueCapacity : Nat := 100
  /-- How many bytes are uploaded at once. -/
  chunkSize : Nat := 64 * 1024
  deriving DecidableEq, Repr

/-- Why settings cannot be used. -/
inductive SettingsFault where
  | unreadable (path : String) (fault : StorageFault)
  /-- The text is no TOML, or gives a setting a value of the wrong type. -/
  | malformed
  | invalid (reason : String)
  deriving DecidableEq, Repr

namespace SettingsFault

/-- The kind of a fault. -/
def kind : SettingsFault → String
  | .unreadable _ _ => "Io"
  | .malformed => "Parse"
  | .invalid _ => "Invalid"

/-- What is said of a text that cannot be read. -/
def parseMessage : String := "TOML parse error"

/-- The text of a fault. -/
def message : SettingsFault → String
  | .unreadable path f => "cannot read config " ++ path ++ ": " ++ f.message
  | .malformed => "invalid config: " ++ parseMessage
  | .invalid reason => "invalid config: " ++ reason

/-- The texts of the faults behind a fault. -/
def causes : SettingsFault → List String
  | .unreadable _ f => [f.message]
  | .malformed => []
  | .invalid _ => []

end SettingsFault

namespace Settings

/-- The largest number that a setting can be. -/
def maxNumber : Nat := Nat.pow 2 64 - 1

/-- A number of a setting as a JSON number. -/
def numberForm : Json.Form Nat := .natural "usize" maxNumber

/-- Settings as a JSON object. -/
def form : Json.Form Settings :=
  .record "struct FabricConfig"
    [.of "archive_dir" false Path.form (·.archiveDir) (fun v s => { s with archiveDir := v }),
     .of "session_file" false .text (·.sessionFile) (fun v s => { s with sessionFile := v }),
     .of "deploy_workers" false numberForm (·.workers) (fun v s => { s with workers := v }),
     .of "queue_capacity" false numberForm (·.queueCapacity)
       (fun v s => { s with queueCapacity := v }),
     .of "chunk_size" false numberForm (·.chunkSize) (fun v s => { s with chunkSize := v })]
    {}

/-! ## Validity -/

/-- Settings can be used if no number is zero and the file of the records is a plain name. -/
def validate (s : Settings) : Except SettingsFault Unit := do
  if s.workers = 0 then throw (.invalid "deploy_workers must be at least 1")
  if s.queueCapacity = 0 then throw (.invalid "queue_capacity must be at least 1")
  if s.chunkSize = 0 then throw (.invalid "chunk_size must be at least 1")
  if !Path.isPlainName s.sessionFile then
    throw (.invalid "session_file must be a plain file name")

/-! ## Reading -/

/-- The text under a key, or what stands if there is none. -/
def textAt (key : String) (members : List (String × Toml.Value)) (standing : String) :
    Except SettingsFault String :=
  match Keyed.find? key members with
  | none => .ok standing
  | some (.text s) => .ok s
  | some _ => .error .malformed

/-- The number under a key, or what stands if there is none. -/
def numberAt (key : String) (members : List (String × Toml.Value)) (standing : Nat) :
    Except SettingsFault Nat :=
  match Keyed.find? key members with
  | none => .ok standing
  | some (.integer n) => if 0 ≤ n then .ok n.toNat else .error .malformed
  | some _ => .error .malformed

/-- The settings that a TOML text chooses; what it does not name stands. -/
def read (text : String) : Except SettingsFault Settings := do
  match Toml.parse text with
  | none => throw .malformed
  | some members =>
    let standing : Settings := {}
    return {
      archiveDir := ← textAt "archive_dir" members standing.archiveDir
      sessionFile := ← textAt "session_file" members standing.sessionFile
      workers := ← numberAt "deploy_workers" members standing.workers
      queueCapacity := ← numberAt "queue_capacity" members standing.queueCapacity
      chunkSize := ← numberAt "chunk_size" members standing.chunkSize }

/-- The valid settings that a TOML text chooses. -/
def ofToml (text : String) : Except SettingsFault Settings := do
  let s ← read text
  s.validate
  return s

/-- The valid settings that the file at a path chooses. -/
def ofFile (t : FileTree) (path : String) : Except SettingsFault Settings :=
  match t.readText path with
  | .ok text => ofToml text
  | .error f => .error (.unreadable path f)

/-! ## Consequences -/

/-- The directory of an account. -/
def accountDirectory (s : Settings) (a : Account) : String := Path.join s.archiveDir a.name

/-- The name is that of the record file or of the file beside it. -/
def isReserved (s : Settings) (name : String) : Bool :=
  name = s.sessionFile || name = Path.besideName s.sessionFile

end Settings

end Deployment
