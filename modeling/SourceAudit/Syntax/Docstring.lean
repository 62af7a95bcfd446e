import SourceAudit.Concrete.Tree
import SourceAudit.Syntax.Escape
import SourceAudit.Text.Blank

/-!
Docstrings: the first statement of a body, when it is a lone plain string literal with content.
-/

namespace SourceAudit.Syntax

/-- The characters from byte `start` up to byte `stop`, where the text begins at byte `at_`. -/
def sliceFrom (at_ start stop : Nat) : List Char → List Char
  | [] => []
  | c :: cs =>
    if stop ≤ at_ then []
    else if start ≤ at_ then c :: sliceFrom (at_ + c.utf8Size) start stop cs
    else sliceFrom (at_ + c.utf8Size) start stop cs

/-- The text of a node. -/
def textOf (text : List Char) (n : Concrete) : List Char := sliceFrom 0 n.start.byte n.stop.byte text

def isQuote (c : Char) : Bool := c = '"' || c = '\''

def startsTriple : List Char → Bool
  | a :: b :: c :: _ => isQuote a && a = b && b = c
  | _ => false

/-- The body of a literal from its first quote on, without the delimiters: as many bytes are cut
from the end as quotes stand at the front, whether they are quotes or not. -/
def literalBody (quoted : List Char) : List Char :=
  let width := if startsTriple quoted then 3 else 1
  let size := (quoted.map Char.utf8Size).foldl (· + ·) 0
  if size < 2 * width then [] else sliceFrom 0 width (size - width) quoted

/-- Content of a string literal; none for format strings and byte strings. -/
def literalContent? (literal : List Char) : Option (List Char) :=
  if !literal.any isQuote then none
  else
    let flags := literal.takeWhile (!isQuote ·)
    let quoted := literal.dropWhile (!isQuote ·)
    if flags.any fun c => c = 'f' || c = 'F' || c = 'b' || c = 'B' then none
    else
      let body := literalBody quoted
      if flags.any fun c => c = 'r' || c = 'R' then some body else some (unescape body)

/-- Content of several literals written one after the other; none if one of them has none. -/
def joinedContent? (text : List Char) : List Concrete → Option (List Char)
  | [] => some []
  | p :: ps =>
    match literalContent? (textOf text p) with
    | none => none
    | some c => (joinedContent? text ps).map (c ++ ·)

/-- Content of a string literal or an implicit concatenation of them. -/
def stringValue? (text : List Char) (n : Concrete) : Option (List Char) :=
  if n.kind = "string" then literalContent? (textOf text n)
  else if n.kind = "concatenated_string" then
    joinedContent? text (n.namedChildren.filter fun c => c.kind = "string")
  else none

/-- The docstring of a body. -/
def leadingDocstring? (text : List Char) (body : Concrete) : Option String :=
  match body.parts with
  | [] => none
  | first :: _ =>
    if first.kind ≠ "expression_statement" then none
    else
      match first.parts with
      | [value] =>
        (stringValue? text value).bind fun content =>
          let trimmed := Text.trimChars content
          if trimmed.isEmpty then none else some (String.ofList trimmed)
      | _ => none

end SourceAudit.Syntax
