import SourceAudit.Concrete.Tree

/-!
A cursor in a concrete syntax tree: a node together with the way back to the root. Going to the
first child, else to the next sibling of the node or of its nearest ancestor that has one, visits
all nodes in pre-order; `scan` looks for the first node with some property in this way.
-/

namespace SourceAudit.Concrete

/-- What surrounds a node in its parent: the parent, the siblings to the left (nearest first) and
those to the right. -/
structure Crumb where
  parent : Info
  left : List Concrete
  right : List Concrete

structure Cursor where
  focus : Concrete
  path : List Crumb

namespace Cursor

def ofRoot (t : Concrete) : Cursor := ⟨t, []⟩

def firstChild? (c : Cursor) : Option Cursor :=
  match c.focus with
  | .node _ [] => none
  | .node i (d :: ds) => some ⟨d, ⟨i, [], ds⟩ :: c.path⟩

def parent? (c : Cursor) : Option Cursor :=
  match c.path with
  | [] => none
  | ⟨i, l, r⟩ :: p => some ⟨.node i (l.reverse ++ c.focus :: r), p⟩

def nextSibling? (c : Cursor) : Option Cursor :=
  match c.path with
  | ⟨i, l, r :: rs⟩ :: p => some ⟨r, ⟨i, c.focus :: l, rs⟩ :: p⟩
  | _ => none

/-- The next sibling of the node or of its nearest ancestor that has one. -/
def climb (focus : Concrete) : List Crumb → Option Cursor
  | [] => none
  | k :: p =>
    match nextSibling? ⟨focus, k :: p⟩ with
    | some c => some c
    | none => climb (.node k.parent (k.left.reverse ++ focus :: k.right)) p

/-- The node that follows in pre-order. -/
def next? (c : Cursor) : Option Cursor :=
  match c.firstChild? with
  | some d => some d
  | none => climb c.focus c.path

/-- The siblings to the left, nearest first. -/
def previousSiblings (c : Cursor) : List Concrete :=
  match c.path with
  | [] => []
  | k :: _ => k.left

end Cursor

mutual

/-- Number of nodes. -/
def size : Concrete → Nat
  | .node _ cs => 1 + sizeList cs

def sizeList : List Concrete → Nat
  | [] => 0
  | c :: cs => c.size + sizeList cs

end

namespace Cursor

def pathRemaining : List Crumb → Nat
  | [] => 0
  | k :: p => sizeList k.right + pathRemaining p

/-- Number of nodes from the focus on. -/
def remaining (c : Cursor) : Nat := c.focus.size + pathRemaining c.path

theorem climb_remaining (focus : Concrete) (p : List Crumb) (c : Cursor)
    (h : climb focus p = some c) : c.remaining = pathRemaining p := by
  induction p generalizing focus with
  | nil => simp [climb] at h
  | cons k p ih =>
    obtain ⟨i, l, r⟩ := k
    cases r with
    | nil =>
      have h' : climb (.node i (l.reverse ++ [focus])) p = some c := h
      rw [ih _ h', pathRemaining, sizeList, Nat.zero_add]
    | cons r rs =>
      have h' : some (Cursor.mk r (⟨i, focus :: l, rs⟩ :: p)) = some c := h
      cases h'
      simp only [remaining, pathRemaining, sizeList]
      omega

theorem next?_remaining (c d : Cursor) (h : c.next? = some d) :
    d.remaining + 1 = c.remaining := by
  obtain ⟨⟨i, cs⟩, p⟩ := c
  cases cs with
  | nil =>
    have h' : climb (.node i []) p = some d := h
    rw [climb_remaining _ _ _ h']
    simp only [remaining, size, sizeList]
    omega
  | cons e es =>
    have h' : some (Cursor.mk e (⟨i, [], es⟩ :: p)) = some d := h
    cases h'
    simp only [remaining, pathRemaining, size, sizeList]
    omega

/-- The first result of `f` on the focus and the nodes after it. -/
def scan {α : Type} (f : Cursor → Option α) (c : Cursor) : Option α :=
  match f c with
  | some a => some a
  | none =>
    match _h : c.next? with
    | none => none
    | some d => scan f d
termination_by c.remaining
decreasing_by
  have := next?_remaining c d _h
  omega

end Cursor
end SourceAudit.Concrete
