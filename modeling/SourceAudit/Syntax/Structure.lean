import SourceAudit.Concrete.Cursor
import SourceAudit.Syntax.Docstring
import SourceAudit.Syntax.Problem

/-!
Checks beyond the grammar: indentation, empty blocks and a few statement forms that the grammar
lets pass.
-/

namespace SourceAudit.Syntax

open SourceAudit.Parsing (Point)
open SourceAudit.Concrete (Cursor)

/-- A problem and where it is. -/
abbrev Finding := Point × Problem

/-- The start of the given row. -/
def rowStart (row : Nat) : Point := ⟨row, 0, 0⟩

def isIndentation (c : Char) : Bool := c = ' ' || c = '\t' || c = '\x0c'

/-- Whether only indentation stands before the node on its first line. -/
def beginsLine (text : List Char) (n : Concrete) : Bool :=
  (sliceFrom 0 (n.start.byte - n.start.column) n.start.byte text).all isIndentation

/-- Statements that begin a line must start at `column`. -/
def checkAlignment (text : List Char) (column : Nat) (statements : List Concrete) :
    Option Finding :=
  (statements.find? fun s => beginsLine text s && s.start.column ≠ column).map fun s =>
    (s.start, if s.start.column > column then .unexpectedIndent else .unindentMismatch)

/-- Row where the header of a block ends: that of the last token before the block. -/
def headerEndRow (block : Cursor) (header : Concrete) : Nat :=
  match block.previousSiblings.find? (!·.isTrivia) with
  | some n => n.stop.row
  | none => header.start.row

def expectedBlock (header : Concrete) : Problem :=
  .expectedBlock header.kind (header.start.row + 1)

/-- A block has a statement; unless it shares the header's line, it is indented deeper than the
header, and its statements are aligned. -/
def checkBlock (text : List Char) (block : Cursor) : Option Finding :=
  match block.parent? with
  | none => none
  | some up =>
    let header := up.focus
    let endRow := headerEndRow block header
    match block.focus.parts with
    | [] => some (rowStart (endRow + 1), expectedBlock header)
    | first :: rest =>
      if first.start.row = endRow then none
      else if first.start.column ≤ header.start.column then
        some (first.start, expectedBlock header)
      else checkAlignment text first.start.column (first :: rest)

def checkHasBody (n : Concrete) : Option Finding :=
  if (n.childByField? "body").isSome then none
  else some (rowStart (n.stop.row + 1), expectedBlock n)

/-- Whether a typed parameter collects the remaining arguments. -/
def isSplat (n : Concrete) : Bool :=
  match n.namedChildren with
  | [] => false
  | c :: _ => c.kind = "list_splat_pattern" || c.kind = "dictionary_splat_pattern"

/-- Role of a child of a parameter list. -/
inductive ParameterRole where
  | withDefault
  /-- All parameters after it are given by name. -/
  | star
  | plain
  | neutral

def parameterRole (n : Concrete) : ParameterRole :=
  match n.kind with
  | "default_parameter" => .withDefault
  | "typed_default_parameter" => .withDefault
  | "*" => .star
  | "**" => .star
  | "list_splat_pattern" => .star
  | "dictionary_splat_pattern" => .star
  | "keyword_separator" => .star
  | "typed_parameter" => if isSplat n then .star else .plain
  | "identifier" => .plain
  | _ => .neutral

/-- Before a star form no plain parameter follows one with a default. -/
def checkParameterOrder (seenDefault : Bool) : List Concrete → Option Finding
  | [] => none
  | p :: ps =>
    match parameterRole p with
    | .withDefault => checkParameterOrder true ps
    | .star => none
    | .plain =>
      if seenDefault then some (p.start, .parameterWithoutDefault)
      else checkParameterOrder seenDefault ps
    | .neutral => checkParameterOrder seenDefault ps

/-- An assignment expression is no statement. -/
def checkBareAssignment (statement : Concrete) : Option Finding :=
  (statement.parts.find? fun c => c.kind = "named_expression").map fun c => (c.start, .invalid)

/-- A comprehension clause has one source. -/
def checkComprehensionSource (clause : Cursor) : Option Finding :=
  match (clause.focus.childrenByField "right").filter (·.info.named) with
  | _ :: second :: _ =>
    let inCall := match clause.path with
      | p :: q :: _ => p.parent.kind = "generator_expression" && q.parent.kind = "call"
      | _ => false
    some (second.start, if inCall then .bareGenerator else .invalid)
  | _ => none

def isDeletable (n : Concrete) : Bool :=
  n.kind = "identifier" || n.kind = "attribute" || n.kind = "subscript"

/-- Whether the targets of a deletion lie inside the node. -/
def groupsTargets (n : Concrete) : Bool :=
  ["expression_list", "tuple", "list", "parenthesized_expression", "pattern_list", "tuple_pattern",
    "list_pattern"].contains n.kind

mutual

/-- The first target of a deletion that cannot be deleted. -/
def invalidTarget? : Concrete → Option Concrete
  | .node i cs =>
    let n := Concrete.node i cs
    if isDeletable n then none
    else if groupsTargets n then invalidTargetIn? cs
    else some n

/-- The first such target among the named nodes of a list that are no trivia. -/
def invalidTargetIn? : List Concrete → Option Concrete
  | [] => none
  | c :: cs =>
    if c.info.named && !c.isTrivia then
      match invalidTarget? c with
      | some n => some n
      | none => invalidTargetIn? cs
    else invalidTargetIn? cs

end

def checkDeleteTargets (statement : Concrete) : Option Finding :=
  (invalidTargetIn? statement.children).map fun n =>
    (n.start, if n.kind = "call" then .deletesCall else .deletesExpression)

/-- The structural problem of a node, if it has one. -/
def check (text : List Char) (c : Cursor) : Option Finding :=
  let n := c.focus
  match n.kind with
  | "module" => checkAlignment text 0 n.parts
  | "block" => checkBlock text c
  | "function_definition" => checkHasBody n
  | "class_definition" => checkHasBody n
  | "parameters" => checkParameterOrder false n.children
  | "lambda_parameters" => checkParameterOrder false n.children
  | "expression_statement" => checkBareAssignment n
  | "for_in_clause" => checkComprehensionSource c
  | "delete_statement" => checkDeleteTargets n
  | _ => none

end SourceAudit.Syntax
