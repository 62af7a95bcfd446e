import SourceAudit.Files.Disk
import SourceAudit.Json.Reader
import SourceAudit.Report.Record

/-!
The stored reports: one array of records in a file. A file that is not there, cannot be read or does
not hold such an array counts as an empty history.
-/

namespace SourceAudit.Store

open SourceAudit.Files (Disk)

/-- The records that a text spells. -/
def recordsOf (text : String) : List Json :=
  match Json.parse? text.toList with
  | some (.arr records) => records
  | _ => []

/-- The records in a store. -/
def records (d : Disk) (path : String) : List Json :=
  match d.readText path with
  | .error _ => []
  | .ok text => recordsOf text

/-- The reports in a store; records that are no reports are passed over. -/
def reports (d : Disk) (path : String) : List Report := (records d path).filterMap Report.ofJson?

end SourceAudit.Store
