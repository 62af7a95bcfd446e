import SourceAudit.Json.Record
import SourceAudit.Json.Writer
import SourceAudit.Report.Basic

/-!
Reports as JSON records. Fields stand in the order of the report; those that have no value are left
out, the syntax error apart. Reading takes every record that has the needed fields.
-/

namespace SourceAudit

open SourceAudit.Audit (Issue IssueKind LineSpan Location Metrics Sector)
open SourceAudit.Syntax (SyntaxError)

/-! ### Writing -/

def Syntax.SyntaxError.toJson (e : SyntaxError) : Json :=
  .obj [("line", .nat e.line), ("column", .nat e.column), ("message", .str e.message),
    ("offending_text", .str e.offendingText)]

namespace Audit

def Location.toJson (l : Location) : Json :=
  .obj [("line", .nat l.line), ("column", .nat l.column)]

def LineSpan.toJson (s : LineSpan) : Json :=
  .obj [("start_line", .nat s.startLine), ("end_line", .nat s.endLine), ("length", .nat s.length)]

def Issue.toJson (i : Issue) : Json :=
  .obj ([("type", .str i.kind.label), ("message", .str i.message)]
    ++ Json.optionalField "location" Location.toJson i.location
    ++ Json.optionalField "name" .str i.name
    ++ Json.optionalField "span" LineSpan.toJson i.span
    ++ Json.optionalField "count" .nat i.count)

/-- A score that is not finite is written as null. -/
def Metrics.toJson (m : Metrics) : Json :=
  .obj ([("lines_of_code", .nat m.linesOfCode), ("todo_count", .nat m.todoCount),
      ("num_issues", .nat m.issueCount)]
    ++ Json.optionalField "code_quality_score" .ofDouble m.qualityScore)

end Audit

namespace Report

/-- The report in the order of its fields. -/
def toJson (r : Report) : Json :=
  .obj ([("file", .str r.file), ("sector", .str r.sector.label),
      ("syntax_error", Json.ofOption SyntaxError.toJson r.syntaxError),
      ("issues", .arr (r.issues.map Issue.toJson)), ("metrics", r.metrics.toJson)]
    ++ Json.optionalField "analyzed_on" .str r.analyzedOn
    ++ (if r.externalIssues.isEmpty then []
        else [("external_issues", .arr (r.externalIssues.map Linter.Message.toJson))]))

/-- The report as it is stored. -/
def toRecord (r : Report) : Json := r.toJson.sorted

end Report

/-! ### Reading -/

def Syntax.SyntaxError.ofJson? (j : Json) : Option SyntaxError := do
  let m ← j.members? 4
  let line ← m.required 0 "line" Json.nat?
  let column ← m.required 1 "column" Json.nat?
  let message ← m.required 2 "message" Json.string?
  let offendingText ← m.required 3 "offending_text" Json.string?
  return { line, column, message, offendingText }

namespace Audit

def Location.ofJson? (j : Json) : Option Location := do
  let m ← j.members? 2
  let line ← m.required 0 "line" Json.nat?
  let column ← m.required 1 "column" Json.nat?
  return { line, column }

def LineSpan.ofJson? (j : Json) : Option LineSpan := do
  let m ← j.members? 3
  let startLine ← m.required 0 "start_line" Json.nat?
  let endLine ← m.required 1 "end_line" Json.nat?
  let length ← m.required 2 "length" Json.nat?
  return { startLine, endLine, length }

def Issue.ofJson? (j : Json) : Option Issue := do
  let m ← j.members? 6
  let kind ← m.required 0 "type" (Json.label? IssueKind.ofLabel?)
  let message ← m.required 1 "message" Json.string?
  let location ← m.optional 2 "location" Location.ofJson?
  let name ← m.optional 3 "name" Json.string?
  let span ← m.optional 4 "span" LineSpan.ofJson?
  let count ← m.optional 5 "count" Json.nat?
  return { kind, message, location, name, span, count }

def Metrics.ofJson? (j : Json) : Option Metrics := do
  let m ← j.members? 4
  let linesOfCode ← m.required 0 "lines_of_code" Json.nat?
  let todoCount ← m.required 1 "todo_count" Json.nat?
  let issueCount ← m.required 2 "num_issues" Json.nat?
  let qualityScore ← m.optional 3 "code_quality_score" Json.double?
  return { linesOfCode, todoCount, issueCount, qualityScore }

end Audit

/-- The report that a record holds. -/
def Report.ofJson? (j : Json) : Option Report := do
  let m ← j.members? 7
  let file ← m.required 0 "file" Json.string?
  let sector ← m.required 1 "sector" (Json.label? Sector.ofLabel?)
  let syntaxError ← m.optional 2 "syntax_error" SyntaxError.ofJson?
  let issues ← m.required 3 "issues" (Json.list? Issue.ofJson?)
  let metrics ← m.required 4 "metrics" Metrics.ofJson?
  let analyzedOn ← m.optional 5 "analyzed_on" Json.string?
  let externalIssues ← m.withDefault 6 "external_issues" []
    (Json.list? Linter.Message.ofJson?)
  return { file, sector, syntaxError, issues, metrics, analyzedOn, externalIssues }

end SourceAudit
