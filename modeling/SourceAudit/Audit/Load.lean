import SourceAudit.Audit.Analysis
import SourceAudit.Files.Disk
import SourceAudit.Text.Newline

/-!
Sources from files, and their analysis.
-/

namespace SourceAudit.Audit

open SourceAudit.Files (Disk)

/-- Why a source could not be loaded. -/
inductive LoadFault where
  | notFound (path : String)
  | unreadable (path : String) (fault : Files.Fault)
  deriving BEq, DecidableEq, Inhabited

def LoadFault.message : LoadFault → String
  | .notFound path => "file not found: " ++ path
  | .unreadable path f => "failed to read " ++ path ++ ": " ++ f.message

/-- The source at a path, with line feeds as its only line ends. -/
def SourceUnit.load (d : Disk) (path : String) : Except LoadFault SourceUnit :=
  if !d.has path then .error (.notFound path)
  else
    match d.readText path with
    | .error f => .error (.unreadable path f)
    | .ok text => .ok ⟨path, String.ofList (Text.normalizeNewlines text.toList)⟩

/-- Analyses the source at a path; `now` is the time of the analysis. -/
def analyzeFile (d : Disk) (threshold : Nat) (lint : Option Lint) (now : String)
    (sector : Option Sector) (path : String) : Except LoadFault Report :=
  match SourceUnit.load d path with
  | .error f => .error f
  | .ok unit => .ok ((analyze threshold lint sector unit).stamped now)

/-- The files after an analysis: a linter, if there is one, runs and may change them, unless the source
has a syntax error. -/
def filesAfter (effect : Option (Disk → String → Disk)) (d : Disk) (r : Report) : Disk :=
  match effect with
  | none => d
  | some run => if r.hasSyntaxError then d else run d r.file

end SourceAudit.Audit
