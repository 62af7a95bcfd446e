import SourceAudit.CommandLine.Run
import SourceAudit.Report.Stamp
import Std.Time.DateTime.Timestamp

/-!
The program. The files that a request can touch are read into a disk, the request is run on it, and
what has changed is written back.
-/

namespace SourceAudit.Program

open SourceAudit.CommandLine (Environment Outcome Request)
open SourceAudit.Files (Disk Entry Place)

/-- The place of the working directory. -/
def workingPlace : Place := ["."]

/-- The place that the parts of a path lead to, links apart. -/
def placeOf (base : Place) : List (List Char) → Place
  | [] => base
  | part :: rest =>
    if part = [] ∨ part = ['.'] then placeOf base rest
    else if part = ['.', '.'] then placeOf base.dropLast rest
    else placeOf (base ++ [String.ofList part]) rest

/-- The path of a place. -/
def pathOf : Place → String
  | "." :: rest => "/".intercalate ("." :: rest)
  | place => "/" ++ "/".intercalate place

/-- The system's number of the error that a directory is read as a file. -/
def directoryCode : UInt32 := 21

/-- What stands at the end of a path. Of the modes only that is looked at whether the file may be
read: all files that may be read may be run. -/
def entryAt? (path : String) : IO (Option Entry) := do
  try
    let content ← IO.FS.readBinFile path
    return some (.file Files.directoryMode content)
  catch e =>
    match e with
    | .inappropriateType _ code _ =>
      return if code == directoryCode then some (.directory Files.directoryMode) else none
    | .permissionDenied .. => return some (.file 0 .empty)
    | _ => return none

/-- Reads the entry at the end of a path and those on the way to it. -/
def readPath (d : Disk) (path : String) : IO Disk := do
  let base := if Files.Path.isAbsolute path then [] else workingPlace
  let mut disk := d
  for p in path :: Files.Path.ancestors path do
    let place := placeOf base (Files.Path.parts p)
    if !place.isEmpty && place != workingPlace then
      match ← entryAt? p with
      | some e => disk := disk.put place e
      | none => pure ()
  return disk

def emptyDisk : Disk where
  entries := [(workingPlace, .directory Files.directoryMode)]
  workingPlace := workingPlace
  guarded := true

def readPaths (d : Disk) (paths : List String) : IO Disk := paths.foldlM readPath d

/-- The paths that a request names, apart from the store. -/
def namedPaths : Request → List String
  | .analyze r => r.file :: (r.config.elim (Config.usualNames.map (Files.Path.within ".")) ([·]))
  | .history r => r.config.elim (Config.usualNames.map (Files.Path.within ".")) ([·])
  | .init r => [r.output]

/-- The paths that depend on the configuration: the store and the linter. -/
def configuredPaths (d : Disk) : Request → List String
  | .init _ => []
  | .analyze r =>
    match CommandLine.loadConfig d r.config with
    | .error _ => []
    | .ok c => [r.store.getD c.storePathOrDefault, c.linterCommand]
  | .history r =>
    match CommandLine.loadConfig d r.config with
    | .error _ => []
    | .ok c => [r.store.getD c.storePathOrDefault]

/-- Whether an entry is new or has a new content. -/
def isChanged (before : Disk) (e : Place × Entry) : Bool :=
  match before.get? e.1, e.2 with
  | some (.file _ old), .file _ new => old.toList != new.toList
  | some (.directory _), .directory _ => false
  | _, _ => true

/-- Writes a changed entry. A file that may not be read has been replaced by one that may not be read
either. -/
def writeEntry (e : Place × Entry) : IO Unit :=
  match e.2 with
  | .directory _ => IO.FS.createDirAll (pathOf e.1)
  | .file mode content => do
    let sealed := mode &&& Files.readBit = 0
    if sealed then IO.FS.removeFile (pathOf e.1)
    IO.FS.writeBinFile (pathOf e.1) content
    if sealed then IO.setAccessRights (pathOf e.1) {}

/-- Writes what has changed, directories before what they hold. -/
def writeBack (before after : Disk) : IO Unit := do
  let changed := (after.entries.filter (isChanged before)).mergeSort fun a b =>
    a.1.length ≤ b.1.length
  for e in changed do
    writeEntry e

/-- Whether to print style sequences: to a terminal, unless the environment says otherwise. -/
def wantsColour : IO Bool := do
  if ((← IO.getEnv "CLICOLOR_FORCE").getD "0") != "0" then return true
  if (← IO.getEnv "NO_COLOR").isSome then return false
  return ((← IO.getEnv "CLICOLOR").getD "1") != "0" && (← (← IO.getStdout).isTty)

def now : IO String := do
  return Report.timeStamp (← Std.Time.Timestamp.now).toSecondsSinceUnixEpoch.val.toNat

/-- Runs a request and gives the code that the program ends with. -/
def runRequest (request : Request) : IO UInt32 := do
  let d ← readPaths emptyDisk (namedPaths request)
  let d ← readPaths d (configuredPaths d request)
  let env : Environment :=
    { lint := fun d command path => (Linter.runOn d command path).toOption
      now := ← now, colour := ← wantsColour }
  let (after, o) := CommandLine.run Linter.filesAfter env d request
  IO.print o.stdout
  IO.eprint o.stderr
  try
    writeBack d after
    return o.exitCode.toUInt32
  catch e =>
    IO.eprintln ("Error: " ++ toString e)
    return CommandLine.exitNotStored.toUInt32

end SourceAudit.Program

def main (args : List String) : IO UInt32 := do
  match SourceAudit.CommandLine.parse args with
  | .error usage =>
    if usage.exitCode = 0 then IO.println usage.message else IO.eprintln usage.message
    return usage.exitCode.toUInt32
  | .ok request => SourceAudit.Program.runRequest request
