/-!
Why an operation on files or the start of a command can fail.
-/

namespace SourceAudit.Files

inductive Fault where
  | notFound
  | notDirectory
  | isDirectory
  | alreadyThere
  | denied
  | busy
  | nameTooLong
  | tooManyLinks
  | notExecutable
  | invalidArgument
  /-- The content is not valid UTF-8. -/
  | notText
  /-- A path with a NUL character. -/
  | nulInPath
  /-- A command or an argument of it with a NUL character. -/
  | nulInCommand
  deriving BEq, DecidableEq, Inhabited

/-- The system's text for an error with its number. -/
def systemError (text : String) (code : Nat) : String :=
  text ++ " (os error " ++ toString code ++ ")"

def Fault.message : Fault → String
  | .notFound => systemError "No such file or directory" 2
  | .notExecutable => systemError "Exec format error" 8
  | .denied => systemError "Permission denied" 13
  | .busy => systemError "Device or resource busy" 16
  | .alreadyThere => systemError "File exists" 17
  | .notDirectory => systemError "Not a directory" 20
  | .isDirectory => systemError "Is a directory" 21
  | .invalidArgument => systemError "Invalid argument" 22
  | .nameTooLong => systemError "File name too long" 36
  | .tooManyLinks => systemError "Too many levels of symbolic links" 40
  | .notText => "stream did not contain valid UTF-8"
  | .nulInPath => "file name contained an unexpected NUL byte"
  | .nulInCommand => "nul byte found in provided data"

end SourceAudit.Files
