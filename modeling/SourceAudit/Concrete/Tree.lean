import SourceAudit.Parsing.Source

/-!
Concrete syntax trees: every visible node of a parse, tokens included, with its position and the
field it fills in its parent.
-/

namespace SourceAudit

open SourceAudit.Parsing (Point)

namespace Concrete

/-- A node without its children. -/
structure Info where
  kind : String
  /-- Whether the node has a name of its own in the grammar, unlike punctuation. -/
  named : Bool
  /-- Whether the node is a token that should have stood here. -/
  missing : Bool
  /-- Whether the node holds text that fits nowhere. -/
  error : Bool
  field : Option String
  start : Point
  stop : Point
  deriving BEq, DecidableEq, Inhabited

end Concrete

/-- A concrete syntax tree. -/
inductive Concrete where
  | node (info : Concrete.Info) (children : List Concrete)
  deriving Inhabited

namespace Concrete

def info : Concrete → Info
  | .node i _ => i

def children : Concrete → List Concrete
  | .node _ cs => cs

def kind (n : Concrete) : String := n.info.kind
def start (n : Concrete) : Point := n.info.start
def stop (n : Concrete) : Point := n.info.stop

/-- Comments and line continuations, which carry no meaning. -/
def isTrivia (n : Concrete) : Bool := n.kind == "comment" || n.kind == "line_continuation"

def namedChildren (n : Concrete) : List Concrete := n.children.filter (·.info.named)

/-- The named children that are no trivia. -/
def parts (n : Concrete) : List Concrete := n.namedChildren.filter (!·.isTrivia)

def childrenByField (n : Concrete) (field : String) : List Concrete :=
  n.children.filter fun c => c.info.field == some field

def childByField? (n : Concrete) (field : String) : Option Concrete :=
  n.children.find? fun c => c.info.field == some field

mutual

/-- The node and all its descendants, each before its children and these from left to right. -/
def preorder : Concrete → List Concrete
  | .node i cs => .node i cs :: preorderList cs

def preorderList : List Concrete → List Concrete
  | [] => []
  | c :: cs => c.preorder ++ preorderList cs

end

end Concrete
end SourceAudit
