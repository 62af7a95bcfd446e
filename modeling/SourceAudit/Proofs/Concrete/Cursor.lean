import SourceAudit.Concrete.Cursor

/-!
The order of a scan. Going on from the root visits every node of the tree once, in pre-order
(`onward_ofRoot`), so a scan finds the first node in pre-order with the property it looks for
(`scan_ofRoot`).
-/

namespace SourceAudit.Concrete

/-- Induction on trees, with all children at once. -/
@[elab_as_elim]
theorem inductionOn {P : Concrete → Prop}
    (node : ∀ i cs, (∀ c ∈ cs, P c) → P (.node i cs)) (t : Concrete) : P t :=
  tree t
where
  tree : ∀ t, P t
    | .node i cs => node i cs (trees cs)
  trees : ∀ cs : List Concrete, ∀ c ∈ cs, P c
    | [] => fun _ h => nomatch h
    | c :: cs => List.forall_mem_cons.mpr ⟨tree c, trees cs⟩

mutual

/-- The cursors at a node and all its descendants, in pre-order; `path` leads from the node to the
root. -/
def cursorsFrom (path : List Crumb) : Concrete → List Cursor
  | .node i cs => ⟨.node i cs, path⟩ :: cursorsIn path i [] cs

/-- The cursors at the nodes of a list of siblings and their descendants; `left` are the siblings
before them, nearest first. -/
def cursorsIn (path : List Crumb) (i : Info) (left : List Concrete) : List Concrete → List Cursor
  | [] => []
  | c :: cs => cursorsFrom (⟨i, left, cs⟩ :: path) c ++ cursorsIn path i (c :: left) cs

end

/-- All cursors in a tree, in pre-order. -/
def cursors (t : Concrete) : List Cursor := cursorsFrom [] t

theorem map_focus_cursorsFrom (t : Concrete) (path : List Crumb) :
    (cursorsFrom path t).map Cursor.focus = t.preorder := by
  induction t using inductionOn generalizing path with
  | node i cs ih =>
    have hlist (left : List Concrete) :
        (cursorsIn path i left cs).map Cursor.focus = preorderList cs := by
      induction cs generalizing left with
      | nil => rfl
      | cons c cs ihcs =>
        rw [cursorsIn, preorderList, List.map_append, ih c (by simp),
          ihcs fun c hc => ih c (by simp [hc])]
    rw [cursorsFrom, preorder, List.map_cons, hlist]

/-- The nodes under the cursors are the nodes of the tree. -/
theorem map_focus_cursors (t : Concrete) : (cursors t).map Cursor.focus = t.preorder :=
  map_focus_cursorsFrom t []

namespace Cursor

/-! ### Going on -/

/-- The cursor and all that follow it. -/
def onward (c : Cursor) : List Cursor :=
  match _h : c.next? with
  | none => [c]
  | some d => c :: onward d
termination_by c.remaining
decreasing_by
  have := next?_remaining c d _h
  omega

/-- Where the scan goes on after a whole subtree. -/
def onwardFrom : Option Cursor → List Cursor
  | none => []
  | some c => onward c

theorem onward_eq (c : Cursor) : onward c = c :: onwardFrom c.next? := by
  rw [onward]
  split
  · rename_i h
    rw [h, onwardFrom]
  · rename_i d h
    rw [h, onwardFrom]

/-- A whole subtree is visited before the scan leaves it. -/
theorem onward_subtree (t : Concrete) (path : List Crumb) :
    onward ⟨t, path⟩ = cursorsFrom path t ++ onwardFrom (climb t path) := by
  induction t using inductionOn generalizing path with
  | node i cs ih =>
    -- from a child on: the rest of the children, then what comes after their parent
    have hchildren : ∀ (rest left : List Concrete) (c : Concrete), (∀ d ∈ c :: rest, d ∈ cs) →
        onward ⟨c, ⟨i, left, rest⟩ :: path⟩ =
          cursorsIn path i left (c :: rest) ++
            onwardFrom (climb (.node i (left.reverse ++ c :: rest)) path) := by
      intro rest
      induction rest with
      | nil =>
        intro left c hmem
        have hclimb : climb c (⟨i, left, []⟩ :: path) =
            climb (.node i (left.reverse ++ [c])) path := rfl
        rw [ih c (hmem c (by simp)), hclimb, cursorsIn, cursorsIn, List.append_nil]
      | cons next rest ihrest =>
        intro left c hmem
        have hclimb : climb c (⟨i, left, next :: rest⟩ :: path) =
            some ⟨next, ⟨i, c :: left, rest⟩ :: path⟩ := rfl
        have hnext := ihrest (c :: left) next fun d hd => hmem d (List.mem_cons_of_mem _ hd)
        have hsplit : cursorsIn path i left (c :: next :: rest) =
            cursorsFrom (⟨i, left, next :: rest⟩ :: path) c ++
              cursorsIn path i (c :: left) (next :: rest) := by
          rw [cursorsIn]
        rw [ih c (hmem c (by simp)), hclimb, onwardFrom, hnext, hsplit, List.append_assoc]
        simp
    rw [onward_eq, cursorsFrom, List.cons_append]
    congr 1
    cases cs with
    | nil => rfl
    | cons c cs =>
      have hnext : next? ⟨.node i (c :: cs), path⟩ = some ⟨c, ⟨i, [], cs⟩ :: path⟩ := rfl
      rw [hnext, onwardFrom, hchildren cs [] c fun d hd => hd]
      rfl

theorem onward_ofRoot (t : Concrete) : onward (ofRoot t) = cursors t := by
  have hend : climb t [] = none := rfl
  rw [ofRoot, onward_subtree, hend, onwardFrom, List.append_nil, cursors]

/-! ### Scanning -/

theorem scan_eq_findSome? {α : Type} (f : Cursor → Option α) (c : Cursor) :
    scan f c = (onward c).findSome? f := by
  fun_induction scan f c with
  | case1 c a h =>
    rw [onward_eq, List.findSome?_cons, h]
  | case2 c h hnext =>
    rw [onward_eq, List.findSome?_cons, h, hnext]
    rfl
  | case3 c h d hnext ih =>
    rw [onward_eq, List.findSome?_cons, h, hnext]
    exact ih

theorem scan_ofRoot {α : Type} (f : Cursor → Option α) (t : Concrete) :
    scan f (ofRoot t) = (cursors t).findSome? f := by
  rw [scan_eq_findSome?, onward_ofRoot]

/-- A scan for a property of the node itself. -/
theorem scan_focus {α : Type} (f : Concrete → Option α) (t : Concrete) :
    scan (fun c => f c.focus) (ofRoot t) = t.preorder.findSome? f := by
  rw [scan_ofRoot, ← map_focus_cursors, List.findSome?_map]
  rfl

/-! ### The loop of a scan -/

/-- Where the loop stands: at a node, below a node that it leaves, or at its end. -/
inductive LoopState (α : Type) where
  | at (c : Cursor)
  | leaving (c : Cursor)
  | done (result : Option α)

/-- One turn of the loop. A node without a hit is left for its first child, else upwards; on the way
up the first next sibling is taken. -/
def loopStep {α : Type} (f : Cursor → Option α) : LoopState α → LoopState α
  | .at c =>
    match f c with
    | some a => .done (some a)
    | none =>
      match c.firstChild? with
      | some d => .at d
      | none => .leaving c
  | .leaving c =>
    match c.nextSibling? with
    | some d => .at d
    | none =>
      match c.parent? with
      | some up => .leaving up
      | none => .done none
  | .done result => .done result

/-- The loop comes to its end from a state, asks at the given cursors on its way and ends with the
given result. -/
inductive LoopRun {α : Type} (f : Cursor → Option α) :
    LoopState α → List Cursor → Option α → Prop
  | done (result : Option α) : LoopRun f (.done result) [] result
  | at {c : Cursor} {asked : List Cursor} {result : Option α}
      (h : LoopRun f (loopStep f (.at c)) asked result) : LoopRun f (.at c) (c :: asked) result
  | leaving {c : Cursor} {asked : List Cursor} {result : Option α}
      (h : LoopRun f (loopStep f (.leaving c)) asked result) : LoopRun f (.leaving c) asked result

/-- The cursors of a list up to the first hit, the hit included. -/
def upToHit {α : Type} (f : Cursor → Option α) (cs : List Cursor) : List Cursor :=
  cs.takeWhile (fun c => (f c).isNone) ++ (cs.find? fun c => (f c).isSome).toList

/-- The way up leads to the next sibling of the nearest ancestor that has one, or to the end. -/
theorem loopRun_leaving {α : Type} {f : Cursor → Option α} {asked : List Cursor}
    {result : Option α} (path : List Crumb) (t : Concrete)
    (h : match climb t path with
      | some d => LoopRun f (.at d) asked result
      | none => asked = [] ∧ result = none) : LoopRun f (.leaving ⟨t, path⟩) asked result := by
  induction path generalizing t with
  | nil =>
    obtain ⟨rfl, rfl⟩ := h
    exact .leaving (.done none)
  | cons k path ih =>
    apply LoopRun.leaving
    obtain ⟨i, l, r⟩ := k
    cases r with
    | nil => exact ih (.node i (l.reverse ++ [t])) h
    | cons next rest => exact h

theorem loopRun_hit {α : Type} {f : Cursor → Option α} {c : Cursor} {a : α} (hf : f c = some a) :
    LoopRun f (.at c) [c] (some a) := by
  have hstep : loopStep f (.at c) = .done (some a) := by simp only [loopStep, hf]
  exact .at (hstep ▸ .done (some a))

/-- From a node without a hit the loop comes to the node that follows, or to its end. -/
theorem loopRun_next {α : Type} {f : Cursor → Option α} {c : Cursor} {asked : List Cursor}
    {result : Option α} (hf : f c = none)
    (h : match c.next? with
      | some d => LoopRun f (.at d) asked result
      | none => asked = [] ∧ result = none) : LoopRun f (.at c) (c :: asked) result := by
  apply LoopRun.at
  unfold next? at h
  simp only [loopStep, hf]
  cases hchild : c.firstChild? with
  | some d => simpa only [hchild] using h
  | none =>
    simp only [hchild] at h
    exact loopRun_leaving c.path c.focus h

theorem loopRun_onward {α : Type} (f : Cursor → Option α) (c : Cursor) :
    LoopRun f (.at c) (upToHit f (onward c)) ((onward c).findSome? f) := by
  fun_induction onward c with
  | case1 c hnext =>
    cases hf : f c with
    | some a => simpa [upToHit, hf] using loopRun_hit hf
    | none =>
      have hrun : LoopRun f (.at c) [c] none := loopRun_next hf (by simp [hnext])
      simpa [upToHit, hf] using hrun
  | case2 c d hnext ih =>
    cases hf : f c with
    | some a => simpa [upToHit, hf] using loopRun_hit hf
    | none =>
      have hrun := loopRun_next hf (by simpa only [hnext] using ih)
      simpa [upToHit, hf] using hrun

/-- The loop from the root comes to its end; until the first hit it asks at the nodes of the tree in
pre-order. -/
theorem loopRun_ofRoot {α : Type} (f : Cursor → Option α) (t : Concrete) :
    LoopRun f (.at (ofRoot t)) (upToHit f (cursors t)) (scan f (ofRoot t)) := by
  have hrun := loopRun_onward f (ofRoot t)
  rwa [← scan_eq_findSome?, onward_ofRoot] at hrun

theorem remaining_le_of_mem_onward {c d : Cursor} (h : d ∈ onward c) :
    d.remaining ≤ c.remaining := by
  fun_induction onward c with
  | case1 c hnext => exact Nat.le_of_eq (congrArg remaining (List.mem_singleton.mp h))
  | case2 c e hnext ih =>
    have hstep := next?_remaining c e hnext
    rcases List.mem_cons.mp h with rfl | h
    · exact Nat.le_refl _
    · have := ih h
      omega

/-- Fewer and fewer nodes remain, so no node is visited twice. -/
theorem nodup_onward (c : Cursor) : (onward c).Nodup := by
  fun_induction onward c with
  | case1 c hnext => simp
  | case2 c d hnext ih =>
    have hstep := next?_remaining c d hnext
    refine List.nodup_cons.mpr ⟨?_, ih⟩
    intro hmem
    have := remaining_le_of_mem_onward hmem
    omega

end Cursor

open Cursor (onward_ofRoot nodup_onward)

theorem nodup_cursors (t : Concrete) : (cursors t).Nodup := by
  rw [← onward_ofRoot]
  exact nodup_onward _

namespace Cursor

/-! ### Children and positions -/

/-- The cursors at a list of siblings; `left` are the siblings before them, nearest first. -/
def siblings (path : List Crumb) (i : Info) (left : List Concrete) : List Concrete → List Cursor
  | [] => []
  | c :: cs => ⟨c, ⟨i, left, cs⟩ :: path⟩ :: siblings path i (c :: left) cs

/-- The cursors at the children of a node, from left to right. -/
def children (c : Cursor) : List Cursor := siblings c.path c.focus.info [] c.focus.children

theorem map_focus_siblings (path : List Crumb) (i : Info) (left cs : List Concrete) :
    (siblings path i left cs).map focus = cs := by
  induction cs generalizing left with
  | nil => rfl
  | cons c cs ih => rw [siblings, List.map_cons, ih]

theorem mem_siblings {path : List Crumb} {i : Info} {left cs : List Concrete} {d : Cursor} :
    d ∈ siblings path i left cs ↔
      ∃ before f after, cs = before ++ f :: after ∧
        d = ⟨f, ⟨i, before.reverse ++ left, after⟩ :: path⟩ := by
  induction cs generalizing left with
  | nil => simp [siblings]
  | cons c cs ih =>
    rw [siblings, List.mem_cons, ih]
    constructor
    · rintro (rfl | ⟨before, f, after, rfl, rfl⟩)
      · exact ⟨[], c, cs, rfl, rfl⟩
      · exact ⟨c :: before, f, after, rfl, by simp⟩
    · rintro ⟨before, f, after, hcs, rfl⟩
      cases before with
      | nil =>
        obtain ⟨rfl, rfl⟩ := List.cons_eq_cons.mp hcs
        exact .inl rfl
      | cons b before =>
        obtain ⟨rfl, rfl⟩ := List.cons_eq_cons.mp hcs
        exact .inr ⟨before, f, after, rfl, by simp⟩

/-- The children of a node are the nodes with this parent. -/
theorem mem_children {c d : Cursor} : d ∈ c.children ↔ d.parent? = some c := by
  obtain ⟨⟨i, cs⟩, path⟩ := c
  rw [children, mem_siblings]
  constructor
  · rintro ⟨before, f, after, hcs, rfl⟩
    have hcs : cs = before ++ f :: after := hcs
    simp [parent?, hcs, info]
  · intro h
    obtain ⟨f, crumbs⟩ := d
    cases crumbs with
    | nil => cases h
    | cons k crumbs =>
      obtain ⟨j, l, r⟩ := k
      cases h
      exact ⟨l.reverse, f, r, rfl, by simp [info]⟩

/-- Induction down a tree. -/
@[elab_as_elim]
theorem inductionOn {P : Cursor → Prop} (step : ∀ c : Cursor, (∀ d ∈ c.children, P d) → P c)
    (c : Cursor) : P c := by
  obtain ⟨t, path⟩ := c
  induction t using Concrete.inductionOn generalizing path with
  | node i cs ih =>
    apply step
    intro d hd
    obtain ⟨before, f, after, hcs, rfl⟩ := mem_siblings.mp hd
    have hcs : cs = before ++ f :: after := hcs
    exact ih f (by simp [hcs]) _

/-- The cursors at the node and all its descendants. -/
def subtree (c : Cursor) : List Cursor := cursorsFrom c.path c.focus

theorem subtree_eq (c : Cursor) : c.subtree = c :: c.children.flatMap subtree := by
  obtain ⟨⟨i, cs⟩, path⟩ := c
  have hsiblings (left : List Concrete) :
      cursorsIn path i left cs = (siblings path i left cs).flatMap subtree := by
    induction cs generalizing left with
    | nil => rfl
    | cons c cs ih =>
      rw [cursorsIn, siblings, List.flatMap_cons, ih]
      rfl
  rw [subtree, cursorsFrom, hsiblings]
  rfl

theorem subtree_ofRoot (t : Concrete) : (ofRoot t).subtree = cursors t := rfl

theorem self_mem_subtree (c : Cursor) : c ∈ c.subtree := by
  rw [subtree_eq]
  simp

theorem child_mem_subtree {c d e : Cursor} (hd : d ∈ c.subtree) (he : e ∈ d.children) :
    e ∈ c.subtree := by
  induction c using inductionOn with
  | step c ih =>
    rw [subtree_eq, List.mem_cons, List.mem_flatMap] at hd ⊢
    rcases hd with rfl | ⟨f, hf, hd⟩
    · exact .inr ⟨e, he, self_mem_subtree e⟩
    · exact .inr ⟨f, hf, ih f hf hd⟩

/-- The tree that a node and the way back to the root are taken from. -/
def rebuild (focus : Concrete) : List Crumb → Concrete
  | [] => focus
  | k :: path => rebuild (.node k.parent (k.left.reverse ++ focus :: k.right)) path

def root (c : Cursor) : Concrete := rebuild c.focus c.path

theorem root_of_parent {c d : Cursor} (h : d.parent? = some c) : d.root = c.root := by
  obtain ⟨f, path⟩ := d
  cases path with
  | nil => cases h
  | cons k path =>
    cases h
    rfl

theorem root_of_mem_subtree {c d : Cursor} (h : d ∈ c.subtree) : d.root = c.root := by
  induction c using inductionOn with
  | step c ih =>
    rw [subtree_eq, List.mem_cons, List.mem_flatMap] at h
    rcases h with rfl | ⟨e, he, hd⟩
    · rfl
    · rw [ih e he hd, root_of_parent (mem_children.mp he)]

theorem mem_cursors_root (c : Cursor) : c ∈ cursors c.root := by
  obtain ⟨focus, path⟩ := c
  induction path generalizing focus with
  | nil => exact self_mem_subtree (ofRoot focus)
  | cons k path ih =>
    have hup := ih (.node k.parent (k.left.reverse ++ focus :: k.right))
    rw [← subtree_ofRoot] at hup ⊢
    exact child_mem_subtree hup (mem_children.mpr rfl)

end Cursor

/-- The cursors in a tree are those that come from it. -/
theorem mem_cursors {t : Concrete} {c : Cursor} : c ∈ cursors t ↔ c.root = t := by
  constructor
  · intro h
    rw [← Cursor.subtree_ofRoot] at h
    exact Cursor.root_of_mem_subtree h
  · rintro rfl
    exact Cursor.mem_cursors_root c

end SourceAudit.Concrete
