import SourceAudit.Audit.Sector

/-!
The commands of the program and the settings that each of them takes.
-/

namespace SourceAudit.CommandLine

open SourceAudit.Audit (Sector)

/-- What a command line can set. -/
inductive Setting where
  | verbose
  | help
  | version
  | file
  | sector
  | store
  | config
  | format
  | threshold
  | lint
  | noSave
  | limit
  | output
  deriving BEq, DecidableEq, Inhabited

namespace Setting

/-- The word for the setting, after two dashes. -/
def word : Setting → String
  | .verbose => "verbose"
  | .help => "help"
  | .version => "version"
  | .file => "file"
  | .sector => "sector"
  | .store => "store"
  | .config => "config"
  | .format => "format"
  | .threshold => "threshold"
  | .lint => "lint"
  | .noSave => "no-save"
  | .limit => "limit"
  | .output => "output"

/-- The letter for the setting, after one dash. -/
def letter? : Setting → Option Char
  | .verbose => some 'v'
  | .help => some 'h'
  | .version => some 'V'
  | .file => some 'f'
  | .sector => some 's'
  | .config => some 'c'
  | .threshold => some 't'
  | .limit => some 'l'
  | .output => some 'o'
  | .store | .format | .lint | .noSave => none

/-- Whether a value follows; all other settings are switched on by being named. -/
def takesValue : Setting → Bool
  | .verbose | .help | .version | .lint | .noSave => false
  | .file | .sector | .store | .config | .format | .threshold | .limit | .output => true

/-- How the setting is named in messages. -/
def label (s : Setting) : String :=
  "--" ++ s.word ++ (if s.takesValue then " <" ++ s.word.toUpper ++ ">" else "")

end Setting

/-- The commands; `program` is the command line before the name of a command. -/
inductive Level where
  | program
  | analyze
  | history
  | init
  deriving BEq, DecidableEq, Inhabited

namespace Level

/-- The settings of a command. -/
def settings : Level → List Setting
  | .program => [.verbose, .help, .version]
  | .analyze => [.file, .sector, .store, .config, .format, .threshold, .lint, .noSave, .verbose, .help]
  | .history => [.store, .config, .limit, .verbose, .help]
  | .init => [.output, .verbose, .help]

/-- The command of a name. -/
def ofName? : String → Option Level
  | "analyze" => some .analyze
  | "check" => some .analyze
  | "history" => some .history
  | "init" => some .init
  | _ => none

/-- What a command does. -/
def about : Level → String
  | .program => "Rule-based static analyzer for Python sources with a persisted report history"
  | .analyze => "Analyze a Python file and record the report"
  | .history => "Show stored reports"
  | .init => "Create a bugdetect configuration file"

end Level

/-- What the command that shows help does. -/
def helpAbout : String := "Print this message or the help of the given subcommand(s)"

/-- Why a word is not a number. -/
inductive NumberFault where
  | empty
  | invalidDigit
  | tooLarge
  deriving BEq, DecidableEq, Inhabited

def NumberFault.message : NumberFault → String
  | .empty => "cannot parse integer from empty string"
  | .invalidDigit => "invalid digit found in string"
  | .tooLarge => "number too large to fit in target type"

/-- Reads digits after a number that has been read already. The first character that cannot be
taken decides what is wrong. -/
def readDigits (n : Nat) : List Char → Except NumberFault Nat
  | [] => .ok n
  | c :: cs =>
    if !c.isDigit then .error .invalidDigit
    else
      let m := n * 10 + (c.toNat - '0'.toNat)
      if 1 <<< 64 ≤ m then .error .tooLarge else readDigits m cs

/-- Reads a number of at most 64 bits; a plus may stand before it. -/
def readNumber : List Char → Except NumberFault Nat
  | [] => .error .empty
  | ['+'] => .error .invalidDigit
  | '+' :: cs => readDigits 0 cs
  | cs => readDigits 0 cs

/-- The sectors that can be set: all but the one for sources without a sector. -/
def readSector? (word : String) : Option Sector :=
  match Sector.ofLabel? word with
  | some .unknown => none
  | s => s

end SourceAudit.CommandLine
