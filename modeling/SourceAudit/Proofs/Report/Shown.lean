import SourceAudit.Proofs.Report.Colour
import SourceAudit.Proofs.Report.Record

/-!
What is shown of a report. The text over several lines is read as the record of the report
(`parse?_jsonText`), and the summary has one line after another: those of the header, and then that
of the syntax error or those of the metrics, the findings and the linter (`summary_eq_linesText`,
`withoutStyles_summary`).
-/

namespace SourceAudit.Report

open SourceAudit.Audit (Issue Metrics)
open SourceAudit.Syntax (SyntaxError)

/-! ### As a record -/

/-- The text of a report, with blanks after it, is read as its record. -/
theorem parse?_toJson {r : Report} (h : ∀ n ∈ r.numbers, n < Json.wordLimit) (bs : List Char)
    (hb : ∀ c ∈ bs, Json.isBlank c = true) :
    Json.parse? (r.toJson.prettyAt 0 ++ bs) = some r.toRecord.reread := by
  have hjson := isJson_toJson h
  have hdepth : r.toJson.depth ≤ Json.maxDepth := Nat.le_trans hjson.depth_le (by decide)
  rw [Json.parse?_prettyAt hdepth hjson.hasJsonNumbers hb, Json.reread_sorted]
  rfl

theorem parse?_pretty {r : Report} (h : ∀ n ∈ r.numbers, n < Json.wordLimit) :
    Json.parse? r.toJson.pretty.toList = some r.toRecord.reread := by
  have hread := parse?_toJson h [] (by simp)
  simpa [Json.pretty] using hread

theorem parse?_jsonText {r : Report} (h : ∀ n ∈ r.numbers, n < Json.wordLimit) :
    Json.parse? r.jsonText.toList = some r.toRecord.reread := by
  have hread := parse?_toJson h ['\n'] (List.forall_mem_singleton.mpr rfl)
  simpa [jsonText, Json.pretty] using hread

/-- The record of a report whose score reads back, or is not finite, is read again as it is. -/
theorem Storable.reread_toRecord {r : Report} (h : r.Storable) : r.toRecord.reread = r.toRecord :=
  Json.Legible.reread_eq_self (storable_toRecord h).scalars

/-! ### As a summary -/

/-- A text with blanks up to the given number of characters. -/
def filledTo (width : Nat) (s : String) : String := String.ofList (padTo width s.toList)

def headerLines (r : Report) : List String :=
  ["", "  bugdetect v0.1.0", "", "  File:     " ++ r.file, "  Sector:   " ++ r.sector.label] ++
    r.analyzedOn.toList.map ("  Analyzed: " ++ ·) ++ [""]

/-- The offending text has a line of its own, if there is one. -/
def errorLines (e : SyntaxError) : List String :=
  ["  ✗ SYNTAX ERROR  line " ++ toString e.line ++ ", column " ++ toString e.column,
    "            " ++ e.message] ++
    (if e.offendingText = "" then [] else ["            " ++ e.offendingText])

def metricsLine (m : Metrics) : String :=
  "  Lines: " ++ toString m.linesOfCode ++ "  TODOs: " ++ toString m.todoCount ++
    "  Issues: " ++ toString m.issueCount ++
    m.qualityScore.elim "" fun score => "  Score: " ++ score.fixed 2 ++ "/10"

def issueLines (i : Issue) : List String :=
  ["    " ++ filledTo 28 i.kind.label ++ i.name.getD "" ++
      i.line?.elim "" fun line => ":" ++ toString line,
    "            " ++ i.message, ""]

def messageLine (m : Linter.Message) : String :=
  "    " ++ filledTo 10 m.messageId ++ " " ++
    filledTo 28 (m.symbol ++ m.line.elim "" fun line => ":" ++ toString line) ++ " " ++ m.message

def findingsLines (r : Report) : List String :=
  [metricsLine r.metrics, ""] ++
    (if r.issues = [] then []
      else ["  Issues (" ++ toString r.issues.length ++ "):", ""] ++
        r.issues.flatMap issueLines ++ [""]) ++
    (if r.externalIssues = [] then []
      else ["  Linter (" ++ toString r.externalIssues.length ++ "):"] ++
        r.externalIssues.map messageLine ++ [""]) ++
    (if r.issues = [] then ["  ✓ No issues found", ""] else [])

/-- The lines of a summary. -/
def summaryLines (r : Report) : List String :=
  r.headerLines ++
    match r.syntaxError with
    | some e => errorLines e ++ [""]
    | none => r.findingsLines

/-- The text of lines. -/
def linesText (lines : List String) : String := String.join (lines.map (· ++ "\n"))

@[simp] theorem linesText_nil : linesText [] = "" := rfl

@[simp] theorem linesText_cons (line : String) (lines : List String) :
    linesText (line :: lines) = line ++ "\n" ++ linesText lines := by
  simp [linesText]

@[simp] theorem linesText_append (as bs : List String) :
    linesText (as ++ bs) = linesText as ++ linesText bs := by
  simp [linesText]

section Parts

variable {style : Style} {width : Nat} {s : String} {rest : List Span}

@[simp] theorem showSpans_nil (colour : Bool) : showSpans colour [] = "" := rfl

@[simp] theorem showSpans_append (colour : Bool) (as bs : List Span) :
    showSpans colour (as ++ bs) = showSpans colour as ++ showSpans colour bs := by
  simp [showSpans]

/-- A part without a style is shown as it is. -/
@[simp] theorem showSpans_text_cons (colour : Bool) :
    showSpans colour (text s :: rest) = s ++ showSpans colour rest := by
  simp [showSpans, text, Span.render, padTo]

@[simp] theorem showSpans_newline_cons (colour : Bool) :
    showSpans colour (newline :: rest) = "\n" ++ showSpans colour rest :=
  showSpans_text_cons colour

@[simp] theorem showSpans_styled_cons :
    showSpans false (styled style s :: rest) = s ++ showSpans false rest := by
  simp [showSpans, styled, Span.render, padTo]

@[simp] theorem showSpans_column_cons :
    showSpans false (column style width s :: rest) = filledTo width s ++ showSpans false rest := by
  simp [showSpans, column, Span.render, filledTo]

end Parts

theorem showSpans_header (r : Report) :
    showSpans false (showHeader r) = linesText r.headerLines := by
  unfold showHeader headerLines programName programVersion
  cases r.analyzedOn with
  | none => simp [← String.toList_inj]
  | some time => simp [← String.toList_inj]

theorem showSpans_syntaxError (e : SyntaxError) :
    showSpans false (showSyntaxError e) = linesText (errorLines e) := by
  unfold showSyntaxError errorLines number
  by_cases htext : e.offendingText = ""
  · simp [htext, ← String.toList_inj]
  · simp [htext, ← String.toList_inj]

theorem showSpans_metrics (m : Metrics) :
    showSpans false (showMetrics m) = linesText [metricsLine m] := by
  unfold showMetrics metricsLine number
  cases m.qualityScore with
  | none => simp [← String.toList_inj]
  | some score => simp [← String.toList_inj]

theorem showSpans_issue (i : Issue) :
    showSpans false (showIssue i) = linesText (issueLines i) := by
  unfold showIssue issueLines number
  cases i.name <;> cases i.line? <;> simp [← String.toList_inj]

theorem showSpans_message (m : Linter.Message) :
    showSpans false (showMessage m) = linesText [messageLine m] := by
  unfold showMessage messageLine number
  cases m.line <;> simp [← String.toList_inj]

/-- Parts that are each shown as some lines are shown as all these lines. -/
theorem showSpans_flatMap_lines {α : Type} {f : α → List Span} {g : α → List String}
    (h : ∀ x, showSpans false (f x) = linesText (g x)) (xs : List α) :
    showSpans false (xs.flatMap f) = linesText (xs.flatMap g) := by
  induction xs with
  | nil => rfl
  | cons x xs ih =>
    rw [List.flatMap_cons, showSpans_append, h, ih, List.flatMap_cons, linesText_append]

theorem showSpans_findings (r : Report) :
    showSpans false (showFindings r) = linesText r.findingsLines := by
  have hissues : showSpans false (r.issues.flatMap showIssue) =
      linesText (r.issues.flatMap issueLines) := showSpans_flatMap_lines showSpans_issue _
  have hmessages : showSpans false (r.externalIssues.flatMap showMessage) =
      linesText (r.externalIssues.map messageLine) := by
    rw [showSpans_flatMap_lines showSpans_message, List.map_eq_flatMap]
  unfold showFindings findingsLines showIssues showMessages heading number
  by_cases hissue : r.issues = [] <;> by_cases hmessage : r.externalIssues = [] <;>
    simp [hissue, hmessage, showSpans_metrics, hissues, hmessages, ← String.toList_inj]

/-- Without colour the summary is its lines. -/
theorem summary_eq_linesText (r : Report) : r.summary false = linesText r.summaryLines := by
  unfold summary summarySpans summaryLines
  rw [showSpans_append, showSpans_header, linesText_append]
  cases r.syntaxError with
  | none => rw [showSpans_findings]
  | some e => simp [showSpans_syntaxError]

/-- With or without colour the summary is its lines, apart from style sequences. -/
theorem withoutStyles_summary {r : Report} (h : r.Plain) (colour : Bool) :
    withoutStyles (r.summary colour).toList = (linesText r.summaryLines).toList := by
  have hbare := bare_summarySpans h
  rw [← summary_eq_linesText]
  cases colour with
  | true => exact withoutStyles_showSpans hbare
  | false =>
    have hplain := withoutStyles_append (escapeFree_showSpans hbare) []
    simpa [withoutStyles, summary] using hplain

end SourceAudit.Report
