import SourceAudit.Syntax.Docstring
import SourceAudit.Syntax.Tree

/-!
From concrete syntax trees to syntax trees. Punctuation, comments and continuations are dropped; a
string literal, implicit concatenations included, keeps only its interpolations.
-/

namespace SourceAudit.Syntax

def fieldText (text : List Char) (n : Concrete) (field : String) : String :=
  match n.childByField? field with
  | some c => String.ofList (textOf text c)
  | none => ""

/-- The name an import item imports; an alias does not count. -/
def importedName? (text : List Char) (n : Concrete) : Option String :=
  if n.kind = "aliased_import" then
    (n.childByField? "name").map fun c => String.ofList (textOf text c)
  else some (String.ofList (textOf text n))

/-- The names an import statement introduces, in order. -/
def importedNames (text : List Char) (n : Concrete) : List String :=
  (n.childrenByField "name").filterMap (importedName? text) ++
    if n.namedChildren.any fun c => c.kind = "wildcard_import" then ["*"] else []

def isHandler (n : Concrete) : Bool := n.kind = "except_clause" || n.kind = "except_group_clause"

/-- The kind of a node. -/
def kindOf (text : List Char) (n : Concrete) : Kind :=
  match n.kind with
  | "module" => .module (leadingDocstring? text n)
  | "function_definition" =>
    .function (fieldText text n "name")
      ((n.children.head?).any fun c => c.kind = "async")
      ((n.childByField? "body").bind (leadingDocstring? text))
  | "class_definition" =>
    .class (fieldText text n "name") ((n.childByField? "body").bind (leadingDocstring? text))
  | "try_statement" => .try (n.namedChildren.filter isHandler).length
  | "except_clause" => .exceptHandler
  | "except_group_clause" => .exceptHandler
  | "import_statement" => .imports (importedNames text n)
  | "import_from_statement" =>
    .importsFrom ((n.childByField? "module_name").map fun c => String.ofList (textOf text c))
      (importedNames text n)
  | "future_import_statement" => .importsFrom (some "__future__") (importedNames text n)
  | tag => .other tag

def isLiteral (n : Concrete) : Bool := n.kind = "string" || n.kind = "concatenated_string"

mutual

/-- The syntax tree of a concrete syntax tree. -/
def lower (text : List Char) : Concrete → Node
  | .node i cs =>
    let n := Concrete.node i cs
    .mk (kindOf text n) (i.start.row + 1) (i.start.column + 1)
      (if isLiteral n then lowerInterpolations text cs else lowerParts text cs)

/-- The syntax trees of the named nodes of a list that are no trivia. -/
def lowerParts (text : List Char) : List Concrete → List Node
  | [] => []
  | c :: cs =>
    if c.info.named && !c.isTrivia then lower text c :: lowerParts text cs else lowerParts text cs

/-- The syntax trees of the interpolations of a list of parts of a string literal. -/
def lowerInterpolations (text : List Char) : List Concrete → List Node
  | [] => []
  | .node i ds :: cs =>
    if i.named && i.kind = "interpolation" then
      lower text (.node i ds) :: lowerInterpolations text cs
    else if i.named && i.kind = "string" then
      lowerInterpolations text ds ++ lowerInterpolations text cs
    else lowerInterpolations text cs

end

end SourceAudit.Syntax
