import Deployment.Command.Line
import Deployment.Settings

/-! # Invocations

* **`Command`** — what can be asked of the program.
* **`Invocation`** — a command with the options that every command has.
* **`Invocation.read`** — the invocation that a command line asks for.
* **`Invocation.settings`** — the settings that it works with. -/

namespace Deployment

/-- What can be asked of the program. -/
inductive Command where
  /-- Upload an archive and deploy it. -/
  | deploy (account archive : String) (owner : Option String) (token : String)
  /-- Tell how far the upload of an account has come. -/
  | status (account token : String)
  /-- Check an archive without deploying it. -/
  | verify (archive scope : String) (owner : Option String)
  deriving DecidableEq, Repr

/-- A command with the options that every command has. -/
structure Invocation where
  /-- The path of the file that holds the settings. -/
  config : Option String := none
  /-- The directory of the archives, over the one of the settings. -/
  archiveDir : Option String := none
  /-- Answers are written as JSON. -/
  json : Bool := false
  command : Command
  deriving DecidableEq, Repr

namespace Invocation

/-- The options that every command has. -/
def commonOptions : List OptionSpec :=
  [{ name := "config", argument := .path }, { name := "archive-dir", argument := .path },
    { name := "json", argument := .nothing }]

/-- The names of the commands. -/
def commandNames : List String := ["deploy", "status", "verify"]

/-- The options of a command. -/
def optionsOf (command : String) : List OptionSpec :=
  if command = "deploy" then
    [{ name := "account", required := true },
      { name := "archive", argument := .path, required := true }, { name := "owner" },
      { name := "token" }]
  else if command = "status" then
    [{ name := "account", required := true }, { name := "token" }]
  else
    [{ name := "spec", argument := .path, required := true }, { name := "namespace" },
      { name := "owner" }]

/-- What an option took, or what stands if it was not given. -/
def valueOf (chosen : Chosen) (name standing : String) : String :=
  (chosen.find? name).getD standing

/-- The token of a request that names none, and the principal of a check. -/
def localPrincipal : String := "local"

/-- The command of a name with its options. -/
def commandOf (command : String) (chosen : Chosen) : Command :=
  let value := valueOf chosen
  let token := value "token" localPrincipal
  if command = "deploy" then
    .deploy (value "account" "") (value "archive" "") (chosen.find? "owner") token
  else if command = "status" then .status (value "account" "") token
  else .verify (value "spec" "") (value "namespace" "default") (chosen.find? "owner")

/-- The words behind a request for help: at most one, the name of a command. -/
def readHelp : List String → LineStop
  | [] => .help
  | [name] => if name = "help" || commandNames.contains name then .help else .misuse
  | _ => .misuse

/-- The invocation that a command line asks for. An option that every command has may stand in
front of the command or behind it; of two the one behind it counts. -/
def read (line : List String) : Except LineStop Invocation := do
  let (before, rest) ← readOptions commonOptions true line []
  match rest with
  | [] => throw .misuse
  | name :: words =>
    if name = "help" then throw (readHelp words)
    if !commandNames.contains name then throw .misuse
    let specs := commonOptions ++ optionsOf name
    let (behind, extra) ← readOptions specs false words []
    if !extra.isEmpty || !hasRequired specs behind then throw .misuse
    let common (option : String) := (behind.find? option).or (before.find? option)
    return {
      config := common "config"
      archiveDir := common "archive-dir"
      json := (common "json").isSome
      command := commandOf name behind }

/-- The settings that an invocation works with: those of its file, with its own directory of the
archives. -/
def settings (i : Invocation) (t : FileTree) : Except SettingsFault Settings := do
  let s ← match i.config with
    | some path => Settings.ofFile t path
    | none => pure {}
  let s := match i.archiveDir with
    | some dir => { s with archiveDir := dir }
    | none => s
  s.validate
  return s

end Invocation

end Deployment
