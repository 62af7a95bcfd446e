import SourceAudit.CommandLine.Setting
import SourceAudit.Report.Render
import SourceAudit.Text.Lines
import SourceAudit.Text.Visible

/-!
Command lines that start no command: those that ask for help or for the version, and those that are
wrong.
-/

namespace SourceAudit.CommandLine

inductive Usage where
  /-- Help on a command was asked for. -/
  | help (level : Level)
  /-- Help on the command that shows help was asked for. -/
  | helpOnHelp
  | version
  /-- The command line is empty. -/
  | nothingGiven
  | noCommand
  | unknownCommand (word : String)
  | unknownArgument (word : String)
  /-- A value with a setting that takes none. -/
  | unneededValue (setting : Setting) (value : String)
  | repeated (setting : Setting)
  | noValue (setting : Setting)
  | invalidSector (word : String)
  | invalidNumber (setting : Setting) (word : String) (fault : NumberFault)
  | noFile
  deriving BEq, DecidableEq, Inhabited

namespace Usage

/-- The first line that is shown. Of words from the command line it shows what a terminal would. -/
def message : Usage → String
  | .help level => level.about
  | .helpOnHelp => helpAbout
  | .version => Report.programName ++ " " ++ Report.programVersion
  | .nothingGiven => Level.program.about
  | .noCommand =>
    "error: '" ++ Report.programName ++ "' requires a subcommand but one was not provided"
  | .unknownCommand word => "error: unrecognized subcommand '" ++ Text.visible word ++ "'"
  | .unknownArgument word => "error: unexpected argument '" ++ Text.visible word ++ "' found"
  | .unneededValue setting value =>
    "error: unexpected value '" ++ Text.visible value ++ "' for '" ++ setting.label
      ++ "' found; no more were expected"
  | .repeated setting =>
    "error: the argument '" ++ setting.label ++ "' cannot be used multiple times"
  | .noValue setting =>
    "error: a value is required for '" ++ setting.label ++ "' but none was supplied"
  | .invalidSector word =>
    "error: invalid value '" ++ Text.visible word ++ "' for '" ++ Setting.sector.label ++ "'"
  | .invalidNumber setting word f =>
    "error: invalid value '" ++ Text.visible word ++ "' for '" ++ setting.label ++ "': "
      ++ f.message
  | .noFile => "error: the following required arguments were not provided:"

/-- The first line of a text. -/
def firstLine (s : String) : String := String.ofList ((Text.lines s.toList).headD [])

/-- Help and version are answers; all else is an error. -/
def exitCode : Usage → Nat
  | .help _ | .helpOnHelp | .version => 0
  | _ => 2

end Usage
end SourceAudit.CommandLine
