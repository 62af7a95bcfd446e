import SourceAudit.Number.Decimal
import SourceAudit.Report.Record
import SourceAudit.Report.Style

/-!
Reports as they are shown: a summary for reading, the record itself, and the table of all stored
reports.
-/

namespace SourceAudit.Report

open SourceAudit.Audit (Issue Metrics)
open SourceAudit.Number (Binary64)
open SourceAudit.Syntax (SyntaxError)

/-- Name and version of the program. -/
def programName : String := "bugdetect"

def programVersion : String := "0.1.0"

def number (n : Nat) : String := toString n

/-- Ends the line. -/
def newline : Span := text "\n"

def showSyntaxError (e : SyntaxError) : List Span :=
  [text "  ", styled .boldRed "✗ SYNTAX ERROR", text "  ",
    styled .dim ("line " ++ number e.line ++ ", column " ++ number e.column), newline,
    text "            ", text e.message, newline]
  ++ (if e.offendingText.isEmpty then []
      else [text "            ", styled .yellow e.offendingText, newline])

/-- Good scores are green, middling ones yellow, all others red. -/
def scoreStyle (score : Binary64) : Style :=
  if score.atLeast 8 then .boldGreen else if score.atLeast 5 then .yellow else .red

def showMetrics (m : Metrics) : List Span :=
  [text "  Lines: ", text (number m.linesOfCode), text "  TODOs: ",
    styled (if m.todoCount > 0 then .yellow else .green) (number m.todoCount),
    text "  Issues: ",
    styled (if m.issueCount > 0 then .red else .green) (number m.issueCount)]
  ++ (match m.qualityScore with
      | none => []
      | some score => [text "  Score: ", styled (scoreStyle score) (score.fixed 2 ++ "/10")])
  ++ [newline]

def showIssue (i : Issue) : List Span :=
  [text "    ", column .dim 28 i.kind.label]
  ++ (match i.name with
      | none => []
      | some name => [styled .blue name])
  ++ (match i.line? with
      | none => []
      | some line => [styled .dim (":" ++ number line)])
  ++ [newline, text "            ", text i.message, newline, newline]

/-- A heading with the number of entries. -/
def heading (title : String) (count : Nat) : List Span :=
  [text "  ", styled .bold title, text (" (" ++ number count ++ "):"), newline]

def showIssues (issues : List Issue) : List Span :=
  heading "Issues" issues.length ++ [newline] ++ issues.flatMap showIssue

def showMessage (m : Linter.Message) : List Span :=
  let line := match m.line with
    | none => ""
    | some l => ":" ++ number l
  [text "    ", column .dim 10 m.messageId, text " ", column .plain 28 (m.symbol ++ line),
    text " ", text m.message, newline]

def showMessages (messages : List Linter.Message) : List Span :=
  heading "Linter" messages.length ++ messages.flatMap showMessage

def showHeader (r : Report) : List Span :=
  [newline, text "  ", styled .boldCyan programName, text (" v" ++ programVersion), newline,
    newline, text "  ", styled .dim "File:     ", text r.file, newline,
    text "  ", styled .dim "Sector:   ", text r.sector.label, newline]
  ++ (match r.analyzedOn with
      | none => []
      | some time => [text "  ", styled .dim "Analyzed: ", text time, newline])
  ++ [newline]

/-- What is shown below the header of a report on a valid source. -/
def showFindings (r : Report) : List Span :=
  showMetrics r.metrics ++ [newline]
  ++ (if r.issues.isEmpty then [] else showIssues r.issues ++ [newline])
  ++ (if r.externalIssues.isEmpty then [] else showMessages r.externalIssues ++ [newline])
  ++ (if r.issues.isEmpty then [text "  ", styled .green "✓ No issues found", newline, newline]
      else [])

def summarySpans (r : Report) : List Span :=
  showHeader r
  ++ (match r.syntaxError with
      | some e => showSyntaxError e ++ [newline]
      | none => showFindings r)

/-- The summary of a report. -/
def summary (colour : Bool) (r : Report) : String := showSpans colour r.summarySpans

/-- The record of a report over several lines. -/
def jsonText (r : Report) : String := r.toJson.pretty ++ "\n"

/-! ### History -/

/-- One line of the table of reports. -/
def historyRow (r : Report) : List Span :=
  [text "    ", column .dim 22 (r.analyzedOn.getD "-"), column .plain 13 r.sector.label,
    styled .blue r.file]
  ++ (if r.hasSyntaxError then [text "  ", styled .red "syntax error", newline]
      else [text ("  " ++ number r.issues.length ++ " issue(s)"), newline])

/-- The last `limit` reports, or all. -/
def latest (limit : Option Nat) (reports : List Report) : List Report :=
  match limit with
  | none => reports
  | some n => reports.drop (reports.length - n)

def historySpans (limit : Option Nat) (reports : List Report) : List Span :=
  heading "Reports" reports.length ++ [newline] ++ (latest limit reports).flatMap historyRow

/-- The table of the last `limit` reports. -/
def history (colour : Bool) (limit : Option Nat) (reports : List Report) : String :=
  showSpans colour (historySpans limit reports)

end SourceAudit.Report
