/-!
Syntax trees as the detectors see them: named nodes only, with the constructs that matter told
apart and all others tagged with their grammar kind.
-/

namespace SourceAudit.Syntax

/-- What a node stands for. -/
inductive Kind where
  | module (docstring : Option String)
  | function (name : String) (isAsync : Bool) (docstring : Option String)
  | class (name : String) (docstring : Option String)
  /-- A `try` statement with the number of its `except` clauses. -/
  | try (handlers : Nat)
  | exceptHandler
  /-- The imported modules, in order. -/
  | imports (names : List String)
  | importsFrom (module : Option String) (names : List String)
  | other (tag : String)
  deriving BEq, DecidableEq, Inhabited

/-- The label of a kind. -/
def Kind.label : Kind → String
  | .module _ => "module"
  | .function .. => "function"
  | .class .. => "class"
  | .try _ => "try"
  | .exceptHandler => "except"
  | .imports _ => "import"
  | .importsFrom .. => "import_from"
  | .other tag => tag

/-- A node with its place, counted from one; columns are counted in bytes. -/
inductive Node where
  | mk (kind : Kind) (line column : Nat) (children : List Node)
  deriving Inhabited

namespace Node

def kind : Node → Kind
  | .mk k _ _ _ => k

def line : Node → Nat
  | .mk _ l _ _ => l

def column : Node → Nat
  | .mk _ _ c _ => c

def children : Node → List Node
  | .mk _ _ _ cs => cs

/-- Name of a function or class. -/
def name? (n : Node) : Option String :=
  match n.kind with
  | .function name _ _ => some name
  | .class name _ => some name
  | _ => none

/-- Docstring of a module, function or class. -/
def docstring? (n : Node) : Option String :=
  match n.kind with
  | .module d => d
  | .function _ _ d => d
  | .class _ d => d
  | _ => none

def isFunction (n : Node) : Bool :=
  match n.kind with
  | .function .. => true
  | _ => false

mutual

/-- Number of nodes. -/
def size : Node → Nat
  | .mk _ _ _ cs => 1 + sizeList cs

def sizeList : List Node → Nat
  | [] => 0
  | c :: cs => c.size + sizeList cs

end

theorem sizeList_append (as bs : List Node) : sizeList (as ++ bs) = sizeList as + sizeList bs := by
  induction as with
  | nil => simp [sizeList]
  | cons a as ih => simp [sizeList, ih]; omega

theorem sizeList_reverse (ns : List Node) : sizeList ns.reverse = sizeList ns := by
  induction ns with
  | nil => rfl
  | cons n ns ih => simp [sizeList, sizeList_append, ih]; omega

end Node

/-- A walk that has begun: the stack of the nodes to go on with, the next one last. -/
structure Walk where
  stack : Array Node

namespace Walk

/-- The next node: it is taken off the stack, and its children are put there, the first one last. -/
def next? (w : Walk) : Option (Node × Walk) :=
  match w.stack.back? with
  | none => none
  | some n => some (n, ⟨w.stack.pop ++ n.children.reverse⟩)

/-- What a step does: the top goes, and its children come in its place, the first one on top. -/
theorem next?_eq_some {w w' : Walk} {n : Node} :
    w.next? = some (n, w') ↔
      ∃ rest : Array Node, w.stack = rest.push n ∧ w'.stack = rest ++ n.children.reverse := by
  obtain ⟨stack'⟩ := w'
  constructor
  · intro h
    unfold next? at h
    split at h
    · cases h
    · rename_i top hback
      cases h
      obtain ⟨rest, hstack⟩ := Array.back?_eq_some_iff.mp hback
      exact ⟨rest, hstack, by rw [hstack, Array.pop_push]⟩
  · rintro ⟨rest, hstack, rfl⟩
    simp [next?, hstack]

/-- Number of nodes still to come. -/
def size (w : Walk) : Nat := Node.sizeList w.stack.toList

theorem size_next? {w w' : Walk} {n : Node} (h : w.next? = some (n, w')) : w'.size < w.size := by
  obtain ⟨rest, hstack, hstack'⟩ := next?_eq_some.mp h
  obtain ⟨k, l, c, cs⟩ := n
  simp only [size, hstack, hstack', Array.toList_appendList, Array.toList_push, Node.children,
    Node.sizeList_append, Node.sizeList_reverse, Node.sizeList, Node.size]
  omega

/-- The nodes still to come, in their order. -/
def items (w : Walk) : List Node :=
  match _h : w.next? with
  | none => []
  | some (n, w') => n :: w'.items
termination_by w.size
decreasing_by exact size_next? _h

end Walk

namespace Node

/-- The walk over a tree before its first step. -/
def startWalk (n : Node) : Walk := ⟨#[n]⟩

/-- All nodes of a tree, each before its children and these from left to right. -/
def walk (n : Node) : List Node := n.startWalk.items

/-- The largest start line in the tree. -/
def maxLine (n : Node) : Nat := n.walk.foldl (fun m d => max m d.line) 0

/-- The functions of a tree, nested ones included. -/
def functions (n : Node) : List Node := n.walk.filter isFunction

end Node
end SourceAudit.Syntax
