import Deployment.Command.Invocation
import Deployment.Command.Report
import Deployment.Service

/-! # Running a command

* **`pieces`** — bytes cut for an upload.
* **`Command.run`** — run a command: what it says, and what it does to the files.
* **`answerLine`** — the same for a command line. -/

namespace Deployment

/-- Bytes cut into pieces of one size; the last piece may be shorter. -/
def pieces (size : Nat) (bytes : List UInt8) : List (List UInt8) :=
  if _h : bytes = [] ∨ size = 0 then []
  else bytes.take size :: pieces size (bytes.drop size)
termination_by bytes.length
decreasing_by
  have := List.length_pos_iff.2 (fun e => _h (.inl e))
  simp only [List.length_drop]
  omega

/-- Nothing is lost when bytes are cut. -/
theorem pieces_flatten {size : Nat} (h : 0 < size) (bytes : List UInt8) :
    (pieces size bytes).flatten = bytes := by
  fun_induction pieces size bytes with
  | case1 bytes hb => rcases hb with rfl | rfl <;> simp_all
  | case2 bytes hb ih => simp [ih]

/-- No piece is empty. -/
theorem ne_nil_of_mem_pieces {size : Nat} {bytes piece : List UInt8}
    (h : piece ∈ pieces size bytes) : piece ≠ [] := by
  fun_induction pieces size bytes with
  | case1 => simp at h
  | case2 bytes hb ih =>
    rcases List.mem_cons.1 h with rfl | h
    · intro he
      rcases List.take_eq_nil_iff.1 he with h0 | h0
      · exact hb (.inr h0)
      · exact hb (.inl h0)
    · exact ih h

/-- A command. What was done to the files before a fault stays so. -/
abbrev Running (α : Type) := EStateM CommandFault FileTree α

/-- Upload an archive piece by piece, and ask for its deployment. -/
def uploadAll (token : Token) (info : ResourceInfo) (parts : List (List UInt8)) (id : Ulid)
    (now : Timestamp) : SessionManager.Request DeployHandle := do
  let resource ← Service.init token info id now
  parts.forM fun part => Service.chunk token resource (some part)
  Service.deploy token resource now

/-- What is told of the file that is to be uploaded. -/
def uploadInfo (account archive : String) (owner : Option String) (bytes : List UInt8) :
    Except CommandFault ResourceInfo :=
  match Path.fileName? archive with
  | none => .error (.unnamed archive)
  | some name => .ok
    { account := ⟨account⟩, fileName := name, size := bytes.length,
      owner := owner.map (⟨·⟩) }

/-- How a deployment has ended, once all that was accepted has run. -/
def outcomeOf (token : Token) (h : DeployHandle) (m : SessionManager) :
    Except CommandFault DeployOutcome := do
  let programs := match m.result? h with
    | some (.ok d) => d.programs
    | _ => []
  match Service.status token h.resource m with
  | .ok status => return ⟨h.resource, status, programs⟩
  | .error f => throw (.service (.session f))

/-- Upload the file at a path, deploy it, and wait for the end. -/
def runDeploy (s : Settings) (account archive : String) (owner : Option String) (token : Token)
    (id : Ulid) (now : Timestamp) : Running DeployOutcome := fun t =>
  match t.read archive with
  | .error f => .error (.unreadable archive f) t
  | .ok bytes => match uploadInfo account archive owner bytes with
    | .error f => .error f t
    | .ok info =>
      if !SessionManager.canStart s then .error .died t
      else match uploadAll token info (pieces s.chunkSize bytes) id now (.start s t .empty) with
      | .error f m => .error (.service (.session f)) m.plant.files
      | .ok h m =>
        let m := m.runAll now
        match outcomeOf token h m with
        | .ok outcome => .ok outcome m.plant.files
        | .error f => .error f m.plant.files

/-- How far the upload of an account has come. -/
def runStatus (s : Settings) (account : String) (token : Token) (id : Ulid) (t : FileTree) :
    Except CommandFault StatusReply :=
  if !SessionManager.canStart s then .error .died
  else match Service.status token ⟨⟨account⟩, "", id, 1⟩ (.start s t .empty) with
  | .ok status => .ok status
  | .error f => .error (.service (.session f))

/-- Check the archive at a path against empty metadata. -/
def runVerify (archive scope : String) (owner : Option String) (t : FileTree) :
    Except CommandFault Deployable :=
  let job : DeployJob :=
    ⟨⟨scope⟩, archive, owner.map (⟨·⟩), Invocation.localPrincipal⟩
  match job.load t with
  | .error f => .error (.service (.deploy f))
  | .ok d => match d.approve ⟨.empty, .empty⟩ with
    | .ok d _ => .ok d
    | .error f _ => .error (.verification f)

/-- The report of a command that failed, behind what it said before. -/
def failure (f : CommandFault) (output : String := "") : Report :=
  ⟨f.code, output, f.line?⟩

/-- The report of a command that only looks at files. -/
def reportOf {α : Type} (print : α → String) : Except CommandFault α → Report
  | .ok a => { output := print a }
  | .error f => failure f

/-- The report of a deployment, which fails if the deployment did. -/
def outcomeReport (json : Bool) (o : DeployOutcome) : Report :=
  let output := showOutcome json o
  if o.status.status = .deployed then { output := output }
  else failure (.incomplete o.status.message) output

/-- Run a command. -/
def Command.run (c : Command) (s : Settings) (json : Bool) (id : Ulid) (now : Timestamp)
    (t : FileTree) : Report × FileTree :=
  match c with
  | .deploy account archive owner token =>
    match runDeploy s account archive owner ⟨token⟩ id now t with
    | .ok outcome t => (outcomeReport json outcome, t)
    | .error f t => (failure f, t)
  | .status account token => (reportOf (showStatus json) (runStatus s account ⟨token⟩ id t), t)
  | .verify archive scope owner =>
    (reportOf (showVerified json) (runVerify archive scope owner t), t)

/-- Run an invocation: its settings come first. -/
def Invocation.run (i : Invocation) (id : Ulid) (now : Timestamp) (t : FileTree) :
    Report × FileTree :=
  match i.settings t with
  | .error f => (failure (.service (.settings f)), t)
  | .ok s => i.command.run s i.json id now t

/-- The name of the program. -/
def programName : String := "fabric"

/-- How the program is called. -/
def usage : String :=
  showLines
    ["Usage: " ++ programName ++ " [--config FILE] [--archive-dir DIR] [--json] COMMAND", "",
      "  deploy --account ACCOUNT --archive FILE [--owner PRINCIPAL] [--token TOKEN]",
      "  status --account ACCOUNT [--token TOKEN]",
      "  verify --spec FILE [--namespace NAMESPACE] [--owner PRINCIPAL]"]

/-- The report where nothing is to be done. -/
def LineStop.report : LineStop → Report
  | .help => { output := usage }
  | .version => { output := showLines [programName ++ " " ++ Deployment.version] }
  | .misuse => { code := 2, error := some usage }

/-- Answer a command line. -/
def answerLine (line : List String) (id : Ulid) (now : Timestamp) (t : FileTree) :
    Report × FileTree :=
  match Invocation.read line with
  | .ok i => i.run id now t
  | .error stop => (stop.report, t)

end Deployment
