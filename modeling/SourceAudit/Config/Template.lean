/-!
The configuration file that a project starts with: all settings at their defaults.
-/

namespace SourceAudit.Config

/-- The lines of the first configuration file. -/
def templateLines : List String := [
  "# bugdetect configuration",
  "#",
  "# Every setting is optional. Command-line flags take precedence.",
  "",
  "# Report history, one JSON array of reports.",
  "store_path: \"reports/bug_reports.json\"",
  "",
  "# Functions spanning more lines than this are reported.",
  "long_function_threshold: 50",
  "",
  "# External linter. Its messages and score are attached to each report.",
  "linter:",
  "  enabled: false",
  "  command: \"pylint\""]

/-- The first configuration file. -/
def template : String := String.join (templateLines.map (· ++ "\n"))

end SourceAudit.Config
