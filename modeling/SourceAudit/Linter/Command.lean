import SourceAudit.Linter.Output
import SourceAudit.Script.Run
import SourceAudit.Text.Utf8

/-!
The external linter as a command: it is run on the path of the source and writes its messages and
its score.
-/

namespace SourceAudit.Linter

open SourceAudit.Files (Disk)

/-- Why a linter gives no outcome. -/
inductive Fault where
  /-- The command could not be started. -/
  | notStarted (command : String) (fault : Files.Fault)
  /-- What it wrote is no list of messages. -/
  | malformedOutput
  deriving BEq, DecidableEq, Inhabited

def Fault.message : Fault → String
  | .notStarted command f => "failed to run " ++ command ++ ": " ++ f.message
  | .malformedOutput => "malformed linter output"

/-- The arguments of the linter. -/
def arguments (path : String) : List String := ["--score=y", "--output-format=json", path]

/-- Runs the linter on a path. How it ends does not matter, only what it writes. -/
def runOn (d : Disk) (command path : String) : Except Fault Outcome :=
  match Script.run d command (arguments path) with
  | .error f => .error (.notStarted command f)
  | .ok (_, o) =>
    match readOutput? (Text.decodeLossy o.stdout) (Text.decodeLossy o.stderr) with
    | none => .error .malformedOutput
    | some outcome => .ok outcome

/-- The files after a run of the linter, which may change them. -/
def filesAfter (d : Disk) (command path : String) : Disk :=
  match Script.run d command (arguments path) with
  | .error _ => d
  | .ok (after, _) => after

end SourceAudit.Linter
