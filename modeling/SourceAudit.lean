import SourceAudit.Main
import SourceAudit.Proofs.Json.Number
import SourceAudit.Proofs.Json.Text
import SourceAudit.Proofs.Json.Ordered
import SourceAudit.Proofs.Json.Document
import SourceAudit.Proofs.Json.Read
import SourceAudit.Proofs.Report.Record
import SourceAudit.Proofs.Files.Disk
import SourceAudit.Proofs.Files.Read
import SourceAudit.Proofs.Store.Append
import SourceAudit.Proofs.Store.History
import SourceAudit.Proofs.Concrete.Cursor
import SourceAudit.Proofs.Syntax.Verdict
import SourceAudit.Proofs.Syntax.Lowering
import SourceAudit.Proofs.Syntax.Place
import SourceAudit.Proofs.Audit.Findings
import SourceAudit.Proofs.Syntax.Layout
import SourceAudit.Proofs.Syntax.DocumentOrder
import SourceAudit.Proofs.Syntax.Clauses
import SourceAudit.Proofs.Syntax.Trivia
import SourceAudit.Proofs.Audit.Analysis
import SourceAudit.Proofs.Number.Binary64
import SourceAudit.Proofs.Number.Decimal
import SourceAudit.Proofs.Report.Reencode
import SourceAudit.Proofs.Store.Concurrent
import SourceAudit.Proofs.Audit.Linter
import SourceAudit.Proofs.Json.Double
import SourceAudit.Proofs.CommandLine.Analyze
import SourceAudit.Proofs.CommandLine.Printed
import SourceAudit.Proofs.CommandLine.History
import SourceAudit.Proofs.Syntax.Escape
import SourceAudit.Proofs.Syntax.Docstring
import SourceAudit.Proofs.Json.Layout
import SourceAudit.Proofs.Store.AppendOnly
import SourceAudit.Proofs.Syntax.Invariant
import SourceAudit.Proofs.Syntax.Slice
import SourceAudit.Proofs.Syntax.Literal
import SourceAudit.Proofs.Audit.LongFunction
import SourceAudit.Proofs.Concrete.Placed
import SourceAudit.Proofs.Syntax.Indentation
import SourceAudit.Proofs.Text.Run
import SourceAudit.Proofs.Text.Trim
import SourceAudit.Proofs.Json.Spelling
import SourceAudit.Proofs.Linter.Output
import SourceAudit.Proofs.Audit.Order
import SourceAudit.Proofs.Audit.Import
import SourceAudit.Proofs.Syntax.Deletion
import SourceAudit.Proofs.Syntax.Parameter
import SourceAudit.Proofs.Text.Lines
import SourceAudit.Proofs.Audit.Mark
import SourceAudit.Proofs.Audit.Rows
import SourceAudit.Proofs.Text.Newline
import SourceAudit.Proofs.Files.Write
import SourceAudit.Proofs.Audit.Load
import SourceAudit.Proofs.Text.Ranges
import SourceAudit.Proofs.Number.Nearest
import SourceAudit.Proofs.Linter.Score
import SourceAudit.Proofs.Syntax.Preorder
import SourceAudit.Proofs.Text.LetterCase
import SourceAudit.Proofs.Audit.Sector
import SourceAudit.Proofs.Audit.Marker
import SourceAudit.Proofs.Report.Colour
import SourceAudit.Proofs.Report.Shown
