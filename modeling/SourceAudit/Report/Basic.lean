import SourceAudit.Audit.Metrics
import SourceAudit.Audit.Sector
import SourceAudit.Linter.Message
import SourceAudit.Syntax.Problem

/-!
Reports: what an analysis of one source found.
-/

namespace SourceAudit

open SourceAudit.Audit (Issue Metrics Sector)
open SourceAudit.Syntax (SyntaxError)

/-- A report on one source. -/
structure Report where
  /-- Path of the source as it was given. -/
  file : String
  sector : Sector
  /-- Present if the source is not valid; no detector has run then. -/
  syntaxError : Option SyntaxError
  issues : List Issue
  metrics : Metrics
  /-- Time of the analysis. -/
  analyzedOn : Option String := none
  /-- Messages of the external linter. -/
  externalIssues : List Linter.Message := []
  deriving BEq, DecidableEq, Inhabited

namespace Report

/-- The report on a source that is not valid. -/
def syntaxFailure (file : String) (sector : Sector) (e : SyntaxError) : Report :=
  { file, sector, syntaxError := some e, issues := [], metrics := {} }

/-- The report with the time of the analysis. -/
def stamped (r : Report) (now : String) : Report := { r with analyzedOn := some now }

def hasSyntaxError (r : Report) : Bool := r.syntaxError.isSome

/-- Whether the metrics agree with the list of findings. -/
def isConsistent (r : Report) : Bool := r.metrics.issueCount = r.issues.length

end Report
end SourceAudit
