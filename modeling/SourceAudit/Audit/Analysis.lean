import SourceAudit.Audit.Detector
import SourceAudit.Linter.Output
import SourceAudit.Report.Basic
import SourceAudit.Syntax.Parse

/-!
The analysis of one source: a source that is not valid gives a report with the syntax error alone;
for all others the detectors run, the metrics are taken, and the linter's messages and score are
added if there is a linter and it succeeds.
-/

namespace SourceAudit.Audit

open SourceAudit.Syntax (Node SyntaxError)

/-- A source text and its path. -/
structure SourceUnit where
  path : String
  text : String
  deriving BEq, DecidableEq, Inhabited

/-- A linter: what it gives for the file at a path, or nothing if it fails. -/
abbrev Lint := String → Option Linter.Outcome

/-- Findings and metrics of a valid source. -/
def inspect (threshold : Nat) (file : String) (sector : Sector) (text : List Char) (tree : Node) :
    Report :=
  let issues := detectAll threshold tree text
  { file, sector, syntaxError := none, issues, metrics := .collect text issues }

/-- The report with the score and the messages of the linter. -/
def withLinter (r : Report) (outcome : Linter.Outcome) : Report :=
  { r with
    metrics := { r.metrics with qualityScore := outcome.score }
    externalIssues := outcome.messages }

/-- Runs the linter, if there is one; if it fails, the report stays as it is. -/
def lintReport (lint : Option Lint) (path : String) (r : Report) : Report :=
  match lint with
  | none => r
  | some run =>
    match run path with
    | none => r
    | some outcome => withLinter r outcome

/-- Analyses a source. A sector that is not given is guessed from the text. -/
def analyze (threshold : Nat) (lint : Option Lint) (sector : Option Sector) (unit : SourceUnit) :
    Report :=
  let text := unit.text.toList
  let sector := sector.getD (classify text)
  match Syntax.parse unit.text with
  | .error e => .syntaxFailure unit.path sector e
  | .ok tree => lintReport lint unit.path (inspect threshold unit.path sector text tree)

end SourceAudit.Audit
