import SourceAudit.Linter.Message
import SourceAudit.Linter.Score

/-!
What a run of the linter gives: messages on its output, and a score on its error output or, if there
is none, on its output.
-/

namespace SourceAudit.Linter

open SourceAudit.Number (Binary64)

/-- Messages and score of a run. -/
structure Outcome where
  messages : List Message
  score : Option Binary64
  deriving BEq, DecidableEq, Inhabited

/-- The messages of an output, which may be blank. -/
def outputMessages? (stdout : List Char) : Option (List Message) :=
  let trimmed := Text.trimChars stdout
  if trimmed.isEmpty then some [] else messages? trimmed

/-- Reads the two output streams of the linter; none if the messages are malformed. -/
def readOutput? (stdout stderr : List Char) : Option Outcome :=
  (outputMessages? stdout).map fun messages =>
    { messages, score := (score? stderr).or (score? stdout) }

end SourceAudit.Linter
