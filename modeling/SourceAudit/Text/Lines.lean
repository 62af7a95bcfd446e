/-!
Lines of a text. A line ends with a line feed, or with a carriage return and a line feed; the text
after the last line feed is a line only if it is not empty.
-/

namespace SourceAudit.Text

/-- The line without the carriage return that belongs to its line feed. -/
def dropReturn (line : List Char) : List Char :=
  match line.getLast? with
  | some '\r' => line.dropLast
  | _ => line

/-- The lines of a text whose first line has begun with `begun` (nearest first). -/
def linesFrom (begun : List Char) : List Char → List (List Char)
  | [] => if begun.isEmpty then [] else [begun.reverse]
  | c :: cs => if c = '\n' then dropReturn begun.reverse :: linesFrom [] cs else linesFrom (c :: begun) cs

def lines (cs : List Char) : List (List Char) := linesFrom [] cs

end SourceAudit.Text
