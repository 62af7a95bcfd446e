import SourceAudit.Json.Writer
import SourceAudit.Store.History
import SourceAudit.Store.Machine

/-!
Adding a report to a store. The whole history is written to a temporary file beside the store, which
then takes the place of the store in one move; whichever step fails, the store stays as it was and
the temporary file is taken away.
-/

namespace SourceAudit.Store

open SourceAudit.Files (Disk Entry Place)

/-- Why a report was not added. -/
inductive Fault where
  | makeDirectory (dir : String) (fault : Files.Fault)
  | write (path : String) (fault : Files.Fault)
  deriving BEq, DecidableEq, Inhabited

def Fault.message : Fault → String
  | .makeDirectory dir f => "failed to create store directory " ++ dir ++ ": " ++ f.message
  | .write path f => "failed to write report store " ++ path ++ ": " ++ f.message

/-- Mode of the temporary file, `rw-------`. -/
def privateMode : Nat := 0o600

/-- The directory of a store. -/
def directoryOf (path : String) : String :=
  match Files.Path.parent? path with
  | none => "."
  | some dir => if dir.isEmpty then "." else dir

/-- A change of the files, which can fail. -/
abbrev Change := Disk → Except Files.Fault Disk

/-- A step with its change, and with what it leaves if the machine refuses it. -/
structure Action where
  step : Step
  change : Change
  refused : Disk → Disk := id

/-- Makes changes one after another. The first that is refused or fails ends the run, and what has
been done before it stays. -/
def runActions (refuse : Step → Option Files.Fault) (d : Disk) :
    List Action → Disk × Option Files.Fault
  | [] => (d, none)
  | a :: rest =>
    match refuse a.step with
    | some f => (a.refused d, some f)
    | none =>
      match a.change d with
      | .error f => (d, some f)
      | .ok d' => runActions refuse d' rest

/-- The mode of a store: the one it has, or the usual one of a new file. -/
def modeFor (d : Disk) (path : String) : Nat :=
  match d.mode path with
  | .ok m => m
  | .error _ => Files.fileMode

/-- The steps from the temporary file at `temp` to the new store; `written` bytes of the text are in
the file if writing it is refused. -/
def replaceActions (written : Nat) (path : String) (temp : Place) (text : String) : List Action := [
  { step := .createTemporary
    change := fun d => .ok (d.put temp (.file privateMode ByteArray.empty)) },
  { step := .writeRecords
    change := fun d => .ok (d.put temp (.file privateMode text.toUTF8))
    refused := fun d => d.put temp (.file privateMode (text.toUTF8.extract 0 written)) },
  { step := .writeLineEnd
    change := fun d => .ok (d.put temp (.file privateMode (text ++ "\n").toUTF8)) },
  { step := .setMode
    change := fun d => .ok (d.put temp (.file (modeFor d path) (text ++ "\n").toUTF8)) },
  { step := .replace
    change := fun d => d.move temp path }]

/-- Writes the text to the store through a temporary file in the directory at the place `dir`. -/
def replace (m : Machine) (d : Disk) (path : String) (dir : Place) (text : String) :
    Disk × Option Files.Fault :=
  let temp := dir ++ [m.temporaryName d dir path]
  match runActions m.refuse d (replaceActions m.written path temp text) with
  | (d', some f) => (d'.erase temp, some f)
  | (d', none) => (d', none)

/-- Makes the directory of a store and those above it. -/
def makeParents (m : Machine) (d : Disk) (path : String) : Disk × Option Files.Fault :=
  d.makePathUnless (fun above => m.refuse (.makeDirectory above)) (directoryOf path)

/-- Makes a history the content of a store. -/
def save (m : Machine) (d : Disk) (path : String) (history : List Json) : Disk × Option Fault :=
  match makeParents m d path with
  | (d', some f) => (d', some (.makeDirectory (directoryOf path) f))
  | (d', none) =>
    match d'.entry (directoryOf path) with
    | .error f => (d', some (.write path f))
    | .ok (place, _) =>
      match replace m d' path place (Json.arr history).pretty with
      | (d'', some f) => (d'', some (.write path f))
      | (d'', none) => (d'', none)

/-- Adds a report at the end of a store. -/
def append (m : Machine) (d : Disk) (path : String) (r : Report) : Disk × Option Fault :=
  save m d path (records d path ++ [r.toRecord])

end SourceAudit.Store
