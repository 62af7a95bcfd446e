import SourceAudit.Audit.Load
import SourceAudit.CommandLine.Parse
import SourceAudit.Config.Discover
import SourceAudit.Config.Template
import SourceAudit.Linter.Command
import SourceAudit.Store.Append
import SourceAudit.Text.Quoted

/-!
Running a command: the files it leaves, what it prints, and the code it ends with. The code is 0 for
success, 2 if there is no report to give, and 3 if there is one but it could not be stored.
-/

namespace SourceAudit.CommandLine

open SourceAudit.Files (Disk)

/-- What a run depends on besides its request and the files. -/
structure Environment where
  /-- The machine that the store is on. -/
  machine : Store.Machine := .willing
  /-- What a linter command gives for the file at a path. -/
  lint : Disk → String → Audit.Lint
  /-- The time. -/
  now : String
  /-- Whether to print style sequences. -/
  colour : Bool := false

/-- What a run prints, and the code it ends with. -/
structure Outcome where
  exitCode : Nat
  stdout : String := ""
  stderr : String := ""
  deriving BEq, DecidableEq, Inhabited

def exitSuccess : Nat := 0

def exitError : Nat := 2

def exitNotStored : Nat := 3

/-- The end of a run that cannot go on. -/
def failure (message : String) : Outcome := ⟨exitError, "", "Error: " ++ message ++ "\n"⟩

/-! ### Configuration -/

/-- Why there is no configuration. -/
inductive ConfigFault where
  /-- The named file gives none. -/
  | named (path : String) (fault : Config.ReadFault)
  /-- The file that was found gives none. -/
  | found (fault : Config.ReadFault)
  | invalid (fault : Config.Fault)
  deriving BEq, DecidableEq, Inhabited

def ConfigFault.message : ConfigFault → String
  | .named path f => "failed to parse " ++ path ++ ": " ++ f.message
  | .found f => f.message
  | .invalid f => f.message

/-- The named configuration, or the one found in the working directory, or the defaults. -/
def readConfig (d : Disk) (path : Option String) : Except ConfigFault Config :=
  match path with
  | some p =>
    match Config.load d p with
    | .error f => .error (.named p f)
    | .ok c => .ok c
  | none =>
    match Config.discover d "." with
    | .error f => .error (.found f)
    | .ok none => .ok {}
    | .ok (some (_, c)) => .ok c

/-- The configuration, if it has no fault. -/
def loadConfig (d : Disk) (path : Option String) : Except ConfigFault Config :=
  match readConfig d path with
  | .error f => .error f
  | .ok c =>
    match c.fault? with
    | some f => .error (.invalid f)
    | none => .ok c

/-! ### Analysis -/

/-- Why there is no report. -/
inductive AnalyzeFault where
  | format (given : String)
  | zeroThreshold
  | config (fault : ConfigFault)
  | load (fault : Audit.LoadFault)
  deriving BEq, DecidableEq, Inhabited

def AnalyzeFault.message : AnalyzeFault → String
  | .format given => "invalid format " ++ Text.quoted given ++ ", must be 'json' or 'pretty'"
  | .zeroThreshold => "--threshold must be at least 1"
  | .config f => "invalid config: " ++ f.message
  | .load f => f.message

/-- A request that names a format and a threshold there are. -/
def AnalyzeRequest.fault? (r : AnalyzeRequest) : Option AnalyzeFault :=
  if r.format ≠ "json" ∧ r.format ≠ "pretty" then some (.format r.format)
  else if r.threshold = some 0 then some .zeroThreshold
  else none

/-- The linter that a run uses, if any. -/
def linterFor (env : Environment) (d : Disk) (c : Config) (r : AnalyzeRequest) : Option Audit.Lint :=
  if r.lint || c.linterEnabled then some (env.lint d c.linterCommand) else none

/-- The report on the requested source, and the configuration it was made with. -/
def report (env : Environment) (d : Disk) (r : AnalyzeRequest) : Except AnalyzeFault (Config × Report) :=
  match r.fault? with
  | some f => .error f
  | none =>
    match loadConfig d r.config with
    | .error f => .error (.config f)
    | .ok c =>
      match Audit.analyzeFile d (r.threshold.getD c.threshold) (linterFor env d c r) env.now r.sector
          r.file with
      | .error f => .error (.load f)
      | .ok report => .ok (c, report)

/-- A report in the requested format. -/
def shownReport (env : Environment) (format : String) (r : Report) : String :=
  if format = "json" then r.jsonText else r.summary env.colour

/-- What a linter command does to the files when it runs on the file at a path. -/
abbrev LintEffect := Disk → String → String → Disk

/-- The effect of the linter that a run uses, if any. -/
def effectFor (effect : LintEffect) (c : Config) (r : AnalyzeRequest) :
    Option (Disk → String → Disk) :=
  if r.lint || c.linterEnabled then some fun d path => effect d c.linterCommand path else none

/-- Analyses a source, prints the report, and stores it unless told not to. The files are then as the
linter leaves them. -/
def runAnalyze (effect : LintEffect) (env : Environment) (d : Disk) (r : AnalyzeRequest) :
    Disk × Outcome :=
  match report env d r with
  | .error f => (d, failure f.message)
  | .ok (c, rep) =>
    let shown := shownReport env r.format rep
    let d := Audit.filesAfter (effectFor effect c r) d rep
    if r.noSave then (d, ⟨exitSuccess, shown, ""⟩)
    else
      match Store.append env.machine d (r.store.getD c.storePathOrDefault) rep with
      | (d', none) => (d', ⟨exitSuccess, shown, ""⟩)
      | (d', some f) => (d', ⟨exitNotStored, shown, "Error: " ++ f.message ++ "\n"⟩)

/-! ### History -/

/-- Prints the stored reports. -/
def runHistory (env : Environment) (d : Disk) (r : HistoryRequest) : Outcome :=
  match loadConfig d r.config with
  | .error f => failure (AnalyzeFault.config f).message
  | .ok c =>
    let path := r.store.getD c.storePathOrDefault
    let reports := Store.reports d path
    if reports.isEmpty then ⟨exitSuccess, "No reports in " ++ path ++ "\n", ""⟩
    else ⟨exitSuccess, "\n" ++ Report.history env.colour r.limit reports ++ "\n", ""⟩

/-! ### A first configuration -/

/-- The directory that has to be made for a file, if any. -/
def directoryToMake? (path : String) : Option String :=
  match Files.Path.parent? path with
  | none => none
  | some dir => if dir.isEmpty || Files.Path.same dir "." then none else some dir

/-- What is printed after the first configuration has been written. -/
def nextSteps (path : String) : String :=
  let isUsual := Config.usualNames.any (Files.Path.same path)
  "Created " ++ path ++ "\n\nNext steps:\n  1. Edit " ++ path ++ " to customize for your project\n"
    ++ "  2. Run: " ++ Report.programName ++ " analyze --file <path>"
    ++ (if isUsual then "" else " --config " ++ path) ++ "\n"

/-- Writes the first configuration to a file that is not there yet. -/
def runInit (d : Disk) (r : InitRequest) : Disk × Outcome :=
  if d.has r.output then
    (d, failure ("file already exists: " ++ r.output
      ++ "\nRemove it or use --output to specify a different path"))
  else
    match (match directoryToMake? r.output with
      | none => (d, none)
      | some dir => d.makePath dir) with
    | (d', some f) => (d', failure ("failed to create directory: " ++ f.message))
    | (d', none) =>
      match d'.write r.output Config.template.toUTF8 with
      | .error f => (d', failure ("failed to write config: " ++ f.message))
      | .ok d'' => (d'', ⟨exitSuccess, nextSteps r.output, ""⟩)

/-- Runs what a request asks for. -/
def run (effect : LintEffect) (env : Environment) (d : Disk) : Request → Disk × Outcome
  | .analyze r => runAnalyze effect env d r
  | .history r => (d, runHistory env d r)
  | .init r => runInit d r

end SourceAudit.CommandLine
