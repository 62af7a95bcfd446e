import SourceAudit.Audit.Issue
import SourceAudit.Audit.Marker
import SourceAudit.Number.Binary64
import SourceAudit.Text.Lines

/-!
Numbers about a source.
-/

namespace SourceAudit.Audit

open SourceAudit.Number (Binary64)

structure Metrics where
  /-- Lines of the text, blank ones and comments included. -/
  linesOfCode : Nat := 0
  todoCount : Nat := 0
  /-- Number of the findings of the report. -/
  issueCount : Nat := 0
  /-- Score that the external linter gave. -/
  qualityScore : Option Binary64 := none
  deriving BEq, DecidableEq, Inhabited

/-- The numbers of a text with its findings. -/
def Metrics.collect (text : List Char) (issues : List Issue) : Metrics :=
  { linesOfCode := (Text.lines text).length
    todoCount := countMarkers text
    issueCount := issues.length }

end SourceAudit.Audit
