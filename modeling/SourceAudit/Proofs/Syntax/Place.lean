import SourceAudit.Proofs.Syntax.Walk

/-!
Places in a syntax tree. A place is the way down from the root, given by the numbers of the children
that it leads through; two nodes that look alike have places of their own. Compared number by
number, a place comes before the places below it and to the right of it, so the order of places is
pre-order. The walk over a tree passes all places, each once and in this order (`mem_places`,
`places_increasing`, `map_snd_places`).
-/

namespace SourceAudit.Syntax.Node

/-- Induction on trees, with all children at once. -/
@[elab_as_elim]
theorem inductionOn {P : Node → Prop}
    (mk : ∀ k l c cs, (∀ n ∈ cs, P n) → P (.mk k l c cs)) (n : Node) : P n :=
  tree n
where
  tree : ∀ n, P n
    | .mk k l c cs => mk k l c cs (trees cs)
  trees : ∀ cs : List Node, ∀ n ∈ cs, P n
    | [] => fun _ h => nomatch h
    | n :: ns => List.forall_mem_cons.mpr ⟨tree n, trees ns⟩

/-- The node at a place. -/
def at? (n : Node) : List Nat → Option Node
  | [] => some n
  | i :: p => n.children[i]?.bind fun c => c.at? p

theorem at?_append (n : Node) (p q : List Nat) :
    n.at? (p ++ q) = (n.at? p).bind fun m => m.at? q := by
  induction p generalizing n with
  | nil => rfl
  | cons i p ih =>
    simp only [List.cons_append, at?, Option.bind_assoc]
    congr 1
    funext c
    exact ih c

mutual

/-- The places of a tree with the nodes there, each before those of its children and these from left
to right. -/
def places : Node → List (List Nat × Node)
  | .mk k l c cs => ([], .mk k l c cs) :: placesFrom 0 cs

/-- The places in a list of children, the first of which has the number `i`. -/
def placesFrom (i : Nat) : List Node → List (List Nat × Node)
  | [] => []
  | n :: ns => n.places.map (fun q => (i :: q.1, q.2)) ++ placesFrom (i + 1) ns

end

theorem map_snd_places (n : Node) : n.places.map Prod.snd = n.walk := by
  induction n using inductionOn with
  | mk k l c cs ih =>
    have hchildren (i : Nat) : (placesFrom i cs).map Prod.snd = cs.flatMap walk := by
      induction cs generalizing i with
      | nil => rfl
      | cons n ns ihns =>
        rw [placesFrom, List.map_append, List.map_map, List.flatMap_cons,
          ihns fun m hm => ih m (by simp [hm]), ← ih n (by simp)]
        rfl
    rw [places, List.map_cons, hchildren, walk_eq]
    rfl

theorem mem_placesFrom {i : Nat} {ns : List Node} {p : List Nat} {m : Node} :
    (p, m) ∈ placesFrom i ns ↔
      ∃ j q n, p = (i + j) :: q ∧ ns[j]? = some n ∧ (q, m) ∈ n.places := by
  induction ns generalizing i with
  | nil => simp [placesFrom]
  | cons n ns ih =>
    rw [placesFrom, List.mem_append, ih, List.mem_map]
    constructor
    · rintro (⟨⟨q, d⟩, hq, heq⟩ | ⟨j, q, c, rfl, hc, hq⟩)
      · cases heq
        exact ⟨0, q, n, rfl, rfl, hq⟩
      · exact ⟨j + 1, q, c, by rw [Nat.add_assoc, Nat.add_comm 1], hc, hq⟩
    · rintro ⟨j, q, c, rfl, hc, hq⟩
      cases j with
      | zero =>
        cases hc
        exact .inl ⟨(q, m), hq, rfl⟩
      | succ j => exact .inr ⟨j, q, c, by rw [Nat.add_assoc, Nat.add_comm 1], hc, hq⟩

/-- The places of a tree are those with a node. -/
theorem mem_places {n m : Node} {p : List Nat} : (p, m) ∈ n.places ↔ n.at? p = some m := by
  induction p generalizing n with
  | nil =>
    obtain ⟨k, l, c, cs⟩ := n
    rw [places, List.mem_cons, mem_placesFrom]
    simp [at?, eq_comm]
  | cons i p ih =>
    obtain ⟨k, l, c, cs⟩ := n
    rw [places, List.mem_cons, mem_placesFrom, at?, Option.bind_eq_some_iff]
    constructor
    · rintro (h | ⟨j, q, d, heq, hd, hq⟩)
      · cases h
      · simp only [Nat.zero_add, List.cons.injEq] at heq
        obtain ⟨rfl, rfl⟩ := heq
        exact ⟨d, hd, ih.mp hq⟩
    · rintro ⟨d, hd, hp⟩
      exact .inr ⟨i, p, d, by rw [Nat.zero_add], hd, ih.mpr hp⟩

/-- The places stand in pre-order. -/
theorem places_increasing (n : Node) : n.places.Pairwise fun a b => a.1 < b.1 := by
  induction n using inductionOn with
  | mk k l c cs ih =>
    have hchildren (i : Nat) : (placesFrom i cs).Pairwise fun a b => a.1 < b.1 := by
      induction cs generalizing i with
      | nil => exact .nil
      | cons n ns ihns =>
        rw [placesFrom, List.pairwise_append, List.pairwise_map]
        refine ⟨?_, ihns (fun m hm => ih m (by simp [hm])) (i + 1), ?_⟩
        · refine (ih n (by simp)).imp ?_
          intro a b hab
          exact List.cons_lt_cons_iff.mpr (.inr ⟨rfl, hab⟩)
        · intro a ha b hb
          obtain ⟨q, -, rfl⟩ := List.mem_map.mp ha
          obtain ⟨j, r, d, hr, -⟩ := mem_placesFrom.mp (show (b.1, b.2) ∈ _ from hb)
          rw [hr]
          exact List.cons_lt_cons_iff.mpr (.inl (by omega))
    rw [places, List.pairwise_cons]
    refine ⟨?_, hchildren 0⟩
    intro b hb
    obtain ⟨j, r, d, hr, -⟩ := mem_placesFrom.mp (show (b.1, b.2) ∈ _ from hb)
    rw [hr]
    exact List.nil_lt_cons _ _

theorem mem_walk {n m : Node} : m ∈ n.walk ↔ ∃ p, n.at? p = some m := by
  rw [← map_snd_places, List.mem_map]
  constructor
  · rintro ⟨⟨p, d⟩, hd, rfl⟩
    exact ⟨p, mem_places.mp hd⟩
  · rintro ⟨p, hp⟩
    exact ⟨(p, m), mem_places.mpr hp, rfl⟩

/-- What holds between any two entries of a list in this order holds by their places. -/
theorem rel_of_place_lt {R : List Nat × Node → List Nat × Node → Prop}
    {l : List (List Nat × Node)} (hplaces : l.Pairwise fun a b => a.1 < b.1) (hR : l.Pairwise R)
    {a b : List Nat × Node} (ha : a ∈ l) (hb : b ∈ l) (hab : a.1 < b.1) : R a b := by
  induction l with
  | nil => cases ha
  | cons c l ih =>
    rw [List.pairwise_cons] at hplaces hR
    rcases List.mem_cons.mp ha with rfl | hal
    · rcases List.mem_cons.mp hb with rfl | hbl
      · exact absurd hab (List.lt_irrefl _)
      · exact hR.1 b hbl
    · rcases List.mem_cons.mp hb with rfl | hbl
      · exact absurd (List.lt_trans hab (hplaces.1 a hal)) (List.lt_irrefl _)
      · exact ih hplaces.2 hR.2 hal hbl

theorem mem_left_of_place_lt {before after : List (List Nat × Node)} {e x : List Nat × Node}
    (hplaces : (before ++ e :: after).Pairwise fun a b => a.1 < b.1) (hx : x ∈ before ++ e :: after)
    (hlt : x.1 < e.1) : x ∈ before := by
  rw [List.pairwise_append, List.pairwise_cons] at hplaces
  rcases List.mem_append.mp hx with hx | hx
  · exact hx
  · rcases List.mem_cons.mp hx with rfl | hx
    · exact absurd hlt (List.lt_irrefl _)
    · exact absurd (List.lt_trans hlt (hplaces.2.1.1 x hx)) (List.lt_irrefl _)

theorem foldl_max_line (ns : List Node) (a : Nat) :
    (a ≤ ns.foldl (fun m d => max m d.line) a ∧
      ∀ d ∈ ns, d.line ≤ ns.foldl (fun m d => max m d.line) a) ∧
    (ns.foldl (fun m d => max m d.line) a = a ∨
      ∃ d ∈ ns, d.line = ns.foldl (fun m d => max m d.line) a) := by
  induction ns generalizing a with
  | nil => simp
  | cons n ns ih =>
    obtain ⟨⟨hstart, hbound⟩, hreach⟩ := ih (max a n.line)
    rw [List.foldl_cons]
    refine ⟨⟨by omega, List.forall_mem_cons.mpr ⟨by omega, hbound⟩⟩, ?_⟩
    rcases hreach with heq | ⟨d, hd, hline⟩
    · rw [heq]
      rcases Nat.le_total a n.line with h | h
      · exact .inr ⟨n, by simp, by omega⟩
      · exact .inl (by omega)
    · exact .inr ⟨d, by simp [hd], hline⟩

/-- The largest line is that of some node of the tree, and no node of it starts below. -/
theorem maxLine_spec (n : Node) :
    ∃ p m, n.at? p = some m ∧ m.line = n.maxLine ∧ ∀ q d, n.at? q = some d → d.line ≤ m.line := by
  obtain ⟨⟨-, hbound⟩, hreach⟩ := foldl_max_line n.walk 0
  have hlast : ∃ m ∈ n.walk, m.line = n.maxLine := by
    rcases hreach with hzero | hreach
    · have hroot : n ∈ n.walk := mem_walk.mpr ⟨[], rfl⟩
      have hle := hbound n hroot
      refine ⟨n, hroot, ?_⟩
      rw [maxLine]
      omega
    · exact hreach
  obtain ⟨m, hm, hline⟩ := hlast
  obtain ⟨p, hp⟩ := mem_walk.mp hm
  refine ⟨p, m, hp, hline, ?_⟩
  intro q d hd
  rw [hline]
  exact hbound d (mem_walk.mpr ⟨q, hd⟩)

end SourceAudit.Syntax.Node
