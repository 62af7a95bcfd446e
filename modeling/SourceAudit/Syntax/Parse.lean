import SourceAudit.Concrete.Parse
import SourceAudit.Syntax.Lower
import SourceAudit.Syntax.Structure
import SourceAudit.Text.Lines

/-!
The verdict on a source: a syntax error, or its syntax tree. Problems the parser found come before
those of the structural checks, wherever they are in the text.
-/

namespace SourceAudit.Syntax

open SourceAudit.Parsing (Point)
open SourceAudit.Concrete (Cursor)

/-- The problem that a single node is. -/
def nodeProblem? (n : Concrete) : Option Problem :=
  if n.info.missing then some (.missing n.kind n.info.named)
  else if n.info.error then some .invalid
  else if n.kind = "print_statement" then some .printStatement
  else if n.kind = "exec_statement" then some .execStatement
  else none

/-- The first node, in pre-order, that is a problem. -/
def firstSyntaxProblem? (root : Concrete) : Option Finding :=
  (Cursor.ofRoot root).scan fun c => (nodeProblem? c.focus).map fun p => (c.focus.start, p)

/-- The first node, in pre-order, that fails a structural check. -/
def firstStructuralProblem? (text : List Char) (root : Concrete) : Option Finding :=
  (Cursor.ofRoot root).scan (check text)

/-- The report of a problem. -/
def errorAt (text : List Char) (f : Finding) : SyntaxError :=
  { line := f.1.row + 1, column := f.1.column + 1, message := f.2.message
    offendingText := String.ofList (Text.trimChars ((Text.lines text).getD f.1.row [])) }

/-- The verdict on a concrete syntax tree of the text. -/
def judge (text : List Char) (root : Concrete) : Except SyntaxError Node :=
  match firstSyntaxProblem? root with
  | some f => .error (errorAt text f)
  | none =>
    match firstStructuralProblem? text root with
    | some f => .error (errorAt text f)
    | none => .ok (lower text root)

/-- The text without a leading byte order mark. -/
def withoutMark : List Char → List Char
  | '\ufeff' :: cs => cs
  | cs => cs

/-- The verdict on a source. -/
def parse (source : String) : Except SyntaxError Node :=
  let text := withoutMark source.toList
  judge text (Concrete.ofChars text)

end SourceAudit.Syntax
