import SourceAudit.Config.Read
import SourceAudit.Files.Disk

/-!
Configurations from files: a named one, or the first of the usual names in a directory.
-/

namespace SourceAudit.Config

open SourceAudit.Files (Disk)

/-- Why a configuration file gives no configuration. -/
inductive ReadFault where
  | unreadable (fault : Files.Fault)
  | malformed
  deriving BEq, DecidableEq, Inhabited

def ReadFault.message : ReadFault → String
  | .unreadable f => f.message
  | .malformed => "malformed YAML"

/-- The configuration in a file. -/
def load (d : Disk) (path : String) : Except ReadFault Config :=
  match d.readText path with
  | .error f => .error (.unreadable f)
  | .ok text =>
    match parse? text.toList with
    | none => .error .malformed
    | some c => .ok c

/-- Names of configuration files, in the order in which they are looked for. -/
def usualNames : List String := ["bugdetect.yaml", ".bugdetect.yaml"]

/-- The first configuration file of a directory, and its configuration. -/
def discover (d : Disk) (dir : String) : Except ReadFault (Option (String × Config)) :=
  match (usualNames.map (Files.Path.within dir)).find? d.isFile with
  | none => .ok none
  | some path =>
    match load d path with
    | .error f => .error f
    | .ok c => .ok (some (path, c))

end SourceAudit.Config
