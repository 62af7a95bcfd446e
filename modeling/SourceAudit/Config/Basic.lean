import SourceAudit.Audit.Detector
import SourceAudit.Text.Blank

/-!
Configuration: every setting is optional, and has a default if it is absent.
-/

namespace SourceAudit

/-- Settings of the external linter. -/
structure LinterConfig where
  enabled : Bool := false
  command : Option String := none
  deriving BEq, DecidableEq, Inhabited

structure Config where
  /-- Where the reports are kept. -/
  storePath : Option String := none
  /-- Greatest number of lines of a function that is not reported. -/
  longFunctionThreshold : Option Nat := none
  linter : Option LinterConfig := none
  deriving BEq, DecidableEq, Inhabited

/-- Where the reports are kept if nothing else is said. -/
def defaultStorePath : String := "reports/bug_reports.json"

/-- The linter that is run if no other is named. -/
def defaultLinterCommand : String := "pylint"

namespace Config

def storePathOrDefault (c : Config) : String := c.storePath.getD defaultStorePath

def threshold (c : Config) : Nat := c.longFunctionThreshold.getD Audit.defaultThreshold

def linterEnabled (c : Config) : Bool :=
  match c.linter with
  | none => false
  | some l => l.enabled

def linterCommand (c : Config) : String :=
  (c.linter.bind (·.command)).getD defaultLinterCommand

/-- What is wrong with a configuration. -/
inductive Fault where
  | zeroThreshold
  | emptyStorePath
  | emptyLinterCommand
  deriving BEq, DecidableEq

def Fault.message : Fault → String
  | .zeroThreshold => "long_function_threshold must be at least 1"
  | .emptyStorePath => "store_path must not be empty"
  | .emptyLinterCommand => "linter.command must not be empty"

/-- A text of white space only. -/
def isBlankText (s : String) : Bool := (Text.trimChars s.toList).isEmpty

/-- The first fault of a configuration. -/
def fault? (c : Config) : Option Fault :=
  if c.longFunctionThreshold = some 0 then some .zeroThreshold
  else if c.storePath.any isBlankText then some .emptyStorePath
  else if (c.linter.bind (·.command)).any isBlankText then some .emptyLinterCommand
  else none

end Config
end SourceAudit
