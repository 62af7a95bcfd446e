import SourceAudit.Proofs.Syntax.Place

/-!
Walks step by step. Whatever nodes a walk has given so far, the pre-order of its tree is these nodes
and those that the stack stands for (`Gives.remaining_eq`). Every walk comes to an end
(`exists_gives`), and has then given the pre-order of its tree, each place once. The largest line,
which is taken along the walk, is the one that recursion over the tree finds
(`maxLine_eq_lastLine`).
-/

namespace SourceAudit.Syntax

namespace Walk

/-- The steps from one walk to another give these nodes. -/
inductive Gives : Walk → List Node → Walk → Prop where
  | nothing (w : Walk) : Gives w [] w
  | next {w w' w'' : Walk} {n : Node} {ns : List Node} :
    w.next? = some (n, w') → Gives w' ns w'' → Gives w (n :: ns) w''

/-- What a walk has given and what its stack stands for are the same nodes at every moment. -/
theorem Gives.remaining_eq {w w' : Walk} {ns : List Node} (h : Gives w ns w') :
    w.remaining = ns ++ w'.remaining := by
  induction h with
  | nothing w => rfl
  | next hnext _ ih => rw [remaining_of_next? hnext, ih, List.cons_append]

/-- A walk that has no next node has given all. -/
theorem Gives.eq_remaining {w w' : Walk} {ns : List Node} (h : Gives w ns w')
    (hend : w'.next? = none) : ns = w.remaining := by
  rw [h.remaining_eq, remaining_of_none hend, List.append_nil]

/-- Every walk comes to an end. -/
theorem exists_gives (w : Walk) : ∃ w', Gives w w.remaining w' ∧ w'.next? = none := by
  fun_induction items w with
  | case1 w hnone =>
    refine ⟨w, ?_, hnone⟩
    rw [remaining_of_none hnone]
    exact .nothing w
  | case2 w n w' hnext ih =>
    obtain ⟨w'', hgives, hend⟩ := ih
    refine ⟨w'', ?_, hend⟩
    rw [remaining_of_next? hnext]
    exact .next hnext hgives

end Walk

namespace Node

theorem length_preorder (n : Node) : n.preorder.length = n.size := by
  induction n using inductionOn with
  | mk k l c cs ih =>
    have hchildren : (preorderList cs).length = sizeList cs := by
      induction cs with
      | nil => rfl
      | cons n ns ihns =>
        rw [preorderList, List.length_append, ih n (by simp), ihns fun m hm => ih m (by simp [hm]),
          sizeList]
    rw [preorder, List.length_cons, hchildren, size, Nat.add_comm]

/-! ### Every place once -/

/-- The places of a tree, in pre-order. -/
def placeList (n : Node) : List (List Nat) := n.places.map Prod.fst

theorem nodup_placeList (n : Node) : n.placeList.Nodup := by
  rw [placeList, List.nodup_iff_pairwise_ne, List.pairwise_map]
  refine (places_increasing n).imp ?_
  intro a b hab heq
  rw [heq] at hab
  exact List.lt_irrefl _ hab

theorem mem_placeList {n : Node} {p : List Nat} : p ∈ n.placeList ↔ (n.at? p).isSome := by
  rw [placeList, List.mem_map, Option.isSome_iff_exists]
  constructor
  · rintro ⟨⟨q, m⟩, hq, rfl⟩
    exact ⟨m, mem_places.mp hq⟩
  · rintro ⟨m, hm⟩
    exact ⟨(p, m), mem_places.mpr hm, rfl⟩

theorem map_at?_placeList (n : Node) : n.placeList.map n.at? = n.walk.map some := by
  rw [← map_snd_places, placeList, List.map_map, List.map_map]
  apply List.map_congr_left
  intro q hq
  exact mem_places.mp hq

/-! ### The largest line -/

mutual

/-- The largest line on which a node of the tree starts, by recursion over the tree. -/
def lastLine : Node → Nat
  | .mk _ l _ cs => max l (lastLineList cs)

def lastLineList : List Node → Nat
  | [] => 0
  | n :: ns => max n.lastLine (lastLineList ns)

end

theorem foldl_max_preorder (n : Node) (a : Nat) :
    n.preorder.foldl (fun m d => max m d.line) a = max a n.lastLine := by
  induction n using inductionOn generalizing a with
  | mk k l c cs ih =>
    have hchildren (b : Nat) :
        (preorderList cs).foldl (fun m d => max m d.line) b = max b (lastLineList cs) := by
      induction cs generalizing b with
      | nil => exact (Nat.max_zero b).symm
      | cons n ns ihns =>
        rw [preorderList, List.foldl_append, ih n (by simp), ihns fun m hm => ih m (by simp [hm]),
          lastLineList, Nat.max_assoc]
    rw [preorder, List.foldl_cons, hchildren, lastLine, ← Nat.max_assoc]
    rfl

theorem maxLine_eq_lastLine (n : Node) : n.maxLine = n.lastLine := by
  rw [maxLine, walk_eq_preorder, foldl_max_preorder, Nat.zero_max]

/-- The walk over a tree is its pre-order: it has as many items as the tree has nodes and passes each
place of the tree once. Taken step by step, it comes to an end and gives this list; each walk that
has come to its end has given it, a second one too; and at every moment in between, the nodes still
to come are the pre-orders of the nodes on the stack, from the top down. So the largest line is that
of the recursion over the tree. -/
theorem walk_in_preorder (n : Node) :
    (n.walk = n.preorder ∧ n.walk.length = n.size) ∧
    (n.placeList.map n.at? = n.walk.map some ∧ n.placeList.Nodup ∧
      ∀ p, p ∈ n.placeList ↔ (n.at? p).isSome) ∧
    (∃ w, Walk.Gives n.startWalk n.preorder w ∧ w.next? = none) ∧
    (∀ first second w w', Walk.Gives n.startWalk first w → w.next? = none →
      Walk.Gives n.startWalk second w' → w'.next? = none →
        first = n.preorder ∧ second = first) ∧
    (∀ given w, Walk.Gives n.startWalk given w →
      w.items = w.stack.toList.reverse.flatMap preorder ∧ given ++ w.items = n.preorder) ∧
    n.maxLine = n.lastLine := by
  have hstart := remaining_startWalk n
  refine ⟨⟨walk_eq_preorder n, ?_⟩, ⟨map_at?_placeList n, nodup_placeList n, fun p => mem_placeList⟩,
    ?_, ?_, ?_, maxLine_eq_lastLine n⟩
  · rw [walk_eq_preorder, length_preorder]
  · obtain ⟨w, hgives, hend⟩ := Walk.exists_gives n.startWalk
    exact ⟨w, hstart ▸ hgives, hend⟩
  · intro first second w w' hfirst hend hsecond hend'
    have hfirst := hfirst.eq_remaining hend
    have hsecond := hsecond.eq_remaining hend'
    rw [hstart] at hfirst hsecond
    exact ⟨hfirst, hsecond.trans hfirst.symm⟩
  · intro given w hgives
    have hitems := w.items_eq_remaining
    refine ⟨hitems, ?_⟩
    rw [hitems, ← hgives.remaining_eq, hstart]

/-- A node with two children, of which the first has a child. -/
def forkedNode : Node :=
  .mk (.module none) 1 1 [.mk (.other "a") 2 1 [.mk (.other "c") 3 1 []], .mk (.other "b") 4 1 []]

/-- After two steps the child of the first child is on top of the second child; after four steps
nothing is left. -/
theorem forkedNode_walked :
    ∃ given rest w w', Walk.Gives forkedNode.startWalk given w ∧ Walk.Gives w rest w' ∧
      Walk.Gives forkedNode.startWalk (given ++ rest) w' ∧ w'.next? = none ∧
      given.length = 2 ∧ w.items = [.mk (.other "c") 3 1 [], .mk (.other "b") 4 1 []] ∧
      given ++ w.items = forkedNode.preorder ∧ given ++ rest = forkedNode.preorder := by
  obtain ⟨-, -, -, hended, hbetween, -⟩ := walk_in_preorder forkedNode
  have hgiven : Walk.Gives forkedNode.startWalk
      [forkedNode, .mk (.other "a") 2 1 [.mk (.other "c") 3 1 []]]
      ⟨#[.mk (.other "b") 4 1 [], .mk (.other "c") 3 1 []]⟩ :=
    .next rfl (.next rfl (.nothing _))
  have hrest : Walk.Gives ⟨#[.mk (.other "b") 4 1 [], .mk (.other "c") 3 1 []]⟩
      [.mk (.other "c") 3 1 [], .mk (.other "b") 4 1 []] ⟨#[]⟩ :=
    .next rfl (.next rfl (.nothing _))
  have hall : Walk.Gives forkedNode.startWalk
      ([forkedNode, .mk (.other "a") 2 1 [.mk (.other "c") 3 1 []]] ++
        [.mk (.other "c") 3 1 [], .mk (.other "b") 4 1 []]) ⟨#[]⟩ :=
    .next rfl (.next rfl hrest)
  obtain ⟨hitems, hpreorder⟩ := hbetween _ _ hgiven
  exact ⟨_, _, _, _, hgiven, hrest, hall, rfl, rfl, hitems, hpreorder,
    (hended _ _ _ _ hall rfl hall rfl).1⟩

end Node

end SourceAudit.Syntax
