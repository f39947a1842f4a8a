import Deployment.Command.Run
import Std.Time.DateTime.Timestamp

/-! # The program

The files that a command line can be about are read before it is answered, and what the answer
changed in them is written back.

* **`main`** — answer the command line. -/

namespace Deployment

/-- The paths that a path leads through, itself included. -/
def pathsThrough (path : String) : List String :=
  let start := if Path.isAbsolute path then "/" else ""
  (Path.names path).foldl
    (fun paths name => paths ++ [Path.join (paths.getLastD start) name]) []

/-- Add what is at a path to the files that were read. -/
def readInto (t : FileTree) (path : String) : IO FileTree := do
  match t.look path with
  | .ok (_, none) =>
    try
      let bytes ← IO.FS.readBinFile path
      return afterwards (Files.write path bytes.toList) t
    catch
      | .inappropriateType .. => return afterwards (Files.createDirectory path) t
      | _ => return t
  | _ => return t
where
  /-- The files after a change. -/
  afterwards (change : Files Unit) (t : FileTree) : FileTree :=
    match change t with
    | .ok _ t => t
    | .error _ t => t

/-- Add what paths lead through to the files that were read. -/
def readAll (t : FileTree) (paths : List String) : IO FileTree :=
  (paths.flatMap pathsThrough).foldlM readInto t

/-- The files that a command reads. -/
def Invocation.sources (i : Invocation) : List String :=
  i.config.toList ++ match i.command with
    | .deploy _ archive _ _ => [archive]
    | .status _ _ => []
    | .verify archive _ _ => [archive]

/-- The files that a command changes or asks for with its settings. -/
def Invocation.targets (i : Invocation) (s : Settings) : List String :=
  let files (account : String) (names : List String) : List String :=
    names.map (Path.join (s.accountDirectory ⟨account⟩))
  let records := [s.sessionFile, Path.besideName s.sessionFile]
  match i.command with
  | .deploy account archive _ _ => files account ((Path.fileName? archive).toList ++ records)
  | .status account _ => files account records
  | .verify _ _ _ => []

/-- The files that a command line can be about. -/
def filesFor (line : List String) : IO FileTree := do
  match Invocation.read line with
  | .error _ => return .empty
  | .ok i =>
    let t ← readAll .empty i.sources
    match i.settings t with
    | .error _ => return t
    | .ok s => readAll t (i.targets s)

/-- The path of a place. -/
def pathOfPlace (p : Place) : String := p.foldl Path.join ""

/-- Write back what has changed in files. -/
def writeBack (old new : FileTree) : IO Unit := do
  for (place, entry) in new.entries do
    match entry with
    | .directory =>
      if (old.find? place).isNone then IO.FS.createDirAll (pathOfPlace place)
    | .file n =>
      let bytes := new.content n
      let known := match old.find? place with
        | some (.file m) => old.content m == bytes
        | _ => false
      if !known then IO.FS.writeBinFile (pathOfPlace place) ⟨bytes.toArray⟩
    | .fullDevice => pure ()
  for (place, _) in old.entries do
    if (new.find? place).isNone then IO.FS.removeFile (pathOfPlace place)

end Deployment

open Deployment in
/-- Answer the command line. -/
def main (line : List String) : IO UInt32 := do
  let nanoseconds := (← Std.Time.Timestamp.now).toNanosecondsSinceUnixEpoch.toInt
  let id := Ulid.ofMoment (nanoseconds / 1000000).toNat (← IO.getRandomBytes 10).toList
  let files ← filesFor line
  let (report, changed) := answerLine line id (.ofNanoseconds nanoseconds) files
  writeBack files changed
  IO.print report.output
  if let some error := report.error then IO.eprintln error
  return report.code.toUInt32
