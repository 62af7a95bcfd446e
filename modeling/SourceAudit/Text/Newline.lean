/-!
Line ends. A carriage return with a line feed and a carriage return alone both become a line feed.
-/

namespace SourceAudit.Text

/-- The text with every pair of a carriage return and a line feed made one line feed. -/
def joinPairs : List Char → List Char
  | '\r' :: '\n' :: cs => '\n' :: joinPairs cs
  | c :: cs => c :: joinPairs cs
  | [] => []

/-- A carriage return becomes a line feed. -/
def feedForReturn (c : Char) : Char := if c = '\r' then '\n' else c

/-- The text with line feeds as its only line ends. A text without carriage returns stays as it
is. -/
def normalizeNewlines (cs : List Char) : List Char :=
  if cs.contains '\r' then (joinPairs cs).map feedForReturn else cs

end SourceAudit.Text
