import SourceAudit.Syntax.Tree

/-!
The walk over a syntax tree. A walk that has begun still gives the pre-orders of the nodes on its
stack, from the top down (`items_eq_remaining`): a step takes the first node of them away and nothing
else (`remaining_of_next?`). So the walk over a tree is its pre-order (`walk_eq_preorder`): the node,
and then the walks over its children (`walk_eq`).
-/

namespace SourceAudit.Syntax

namespace Node

mutual

/-- The nodes of a tree, each before its children and these from left to right. -/
def preorder : Node → List Node
  | .mk k l c cs => .mk k l c cs :: preorderList cs

def preorderList : List Node → List Node
  | [] => []
  | n :: ns => n.preorder ++ preorderList ns

end

theorem preorderList_eq_flatMap (ns : List Node) : preorderList ns = ns.flatMap preorder := by
  induction ns with
  | nil => rfl
  | cons n ns ih => rw [preorderList, ih, List.flatMap_cons]

theorem preorder_eq (n : Node) : n.preorder = n :: n.children.flatMap preorder := by
  obtain ⟨k, l, c, cs⟩ := n
  rw [preorder, preorderList_eq_flatMap]
  rfl

end Node

namespace Walk

/-- The pre-orders of the nodes on the stack, from the top down. -/
def remaining (w : Walk) : List Node := w.stack.toList.reverse.flatMap Node.preorder

theorem next?_eq_none {w : Walk} : w.next? = none ↔ w.stack = #[] := by
  unfold next?
  split
  · rename_i hback
    simpa using hback
  · rename_i n hback
    simp only [reduceCtorEq, false_iff]
    intro hempty
    rw [hempty] at hback
    cases hback

theorem remaining_of_next? {w w' : Walk} {n : Node} (h : w.next? = some (n, w')) :
    w.remaining = n :: w'.remaining := by
  obtain ⟨rest, hstack, hstack'⟩ := next?_eq_some.mp h
  have htop : w.stack.toList.reverse = n :: rest.toList.reverse := by simp [hstack]
  have hchildren : w'.stack.toList.reverse = n.children ++ rest.toList.reverse := by
    simp [hstack']
  rw [remaining, htop, List.flatMap_cons, Node.preorder_eq, List.cons_append, remaining, hchildren,
    List.flatMap_append]

theorem remaining_of_none {w : Walk} (h : w.next? = none) : w.remaining = [] := by
  rw [remaining, next?_eq_none.mp h]
  rfl

theorem items_eq_remaining (w : Walk) : w.items = w.remaining := by
  fun_induction items w with
  | case1 w hnone => rw [remaining_of_none hnone]
  | case2 w n w' hnext ih => rw [remaining_of_next? hnext, ih]

end Walk

namespace Node

theorem remaining_startWalk (n : Node) : n.startWalk.remaining = n.preorder := by
  simp [startWalk, Walk.remaining]

theorem walk_eq_preorder (n : Node) : n.walk = n.preorder := by
  rw [walk, Walk.items_eq_remaining, remaining_startWalk]

theorem walk_eq (n : Node) : n.walk = n :: n.children.flatMap walk := by
  have hwalk : (walk : Node → List Node) = preorder := funext walk_eq_preorder
  rw [hwalk, ← preorder_eq]

end Node

end SourceAudit.Syntax
