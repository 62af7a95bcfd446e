import SourceAudit.Proofs.Syntax.Layout

/-!
Which structural problem is reported. The scan takes the first node in pre-order that fails a check,
but a check may report a place deep inside its node, so the order of the nodes is not the order of
the places. In a tree in document order a problem outside the failing node never stands before the
reported one, but for those on the line of a header whose block is missing (`earliest_iff_inside`);
a problem inside it may (`misplaced_overtaken`).
-/

namespace SourceAudit.Syntax

open SourceAudit.Parsing (Point)
open SourceAudit.Concrete (Cursor cursors preorderList)

/-! ### Places and spans -/

/-- Rows first, then columns. -/
def NoLater (p q : Point) : Prop := p.row < q.row ∨ p.row = q.row ∧ p.column ≤ q.column

instance (p q : Point) : Decidable (NoLater p q) :=
  inferInstanceAs (Decidable (p.row < q.row ∨ p.row = q.row ∧ p.column ≤ q.column))

theorem NoLater.refl (p : Point) : NoLater p p := .inr ⟨rfl, Nat.le_refl _⟩

theorem NoLater.trans {p q r : Point} (hpq : NoLater p q) (hqr : NoLater q r) : NoLater p r := by
  unfold NoLater at *
  omega

theorem NoLater.row_le {p q : Point} (h : NoLater p q) : p.row ≤ q.row := by
  unfold NoLater at h
  omega

theorem rowStart_noLater {row : Nat} {p : Point} (h : row ≤ p.row) : NoLater (rowStart row) p := by
  unfold NoLater rowStart
  simp only
  omega

/-- A node holds its children, one after the other; comments and continuations are tokens. -/
def SpansChildren (n : Concrete) : Prop :=
  NoLater n.start n.stop ∧
  (∀ c ∈ n.children, NoLater n.start c.start ∧ NoLater c.stop n.stop) ∧
  n.children.Pairwise (fun a b => NoLater a.stop b.start) ∧
  (n.isTrivia = true → n.children.length = 0)

instance (n : Concrete) : Decidable (SpansChildren n) :=
  inferInstanceAs (Decidable (_ ∧ _ ∧ _ ∧ _))

/-- The nodes of the tree are in document order. -/
def DocumentOrder (t : Concrete) : Prop := ∀ n ∈ t.preorder, SpansChildren n

instance (t : Concrete) : Decidable (DocumentOrder t) :=
  inferInstanceAs (Decidable (∀ n ∈ t.preorder, SpansChildren n))

theorem mem_preorderList {cs : List Concrete} {n : Concrete} :
    n ∈ preorderList cs ↔ ∃ c ∈ cs, n ∈ c.preorder := by
  induction cs with
  | nil => simp [preorderList]
  | cons c cs ih => simp [preorderList, ih]

theorem mem_preorder {t n : Concrete} :
    n ∈ t.preorder ↔ n = t ∨ ∃ c ∈ t.children, n ∈ c.preorder := by
  obtain ⟨i, cs⟩ := t
  rw [Concrete.preorder, List.mem_cons, mem_preorderList]
  rfl

theorem self_mem_preorder (t : Concrete) : t ∈ t.preorder := mem_preorder.mpr (.inl rfl)

theorem child_mem_preorder {t n c : Concrete} (hn : n ∈ t.preorder) (hc : c ∈ n.children) :
    c ∈ t.preorder := by
  induction t using Concrete.inductionOn with
  | node i cs ih =>
    rcases mem_preorder.mp hn with rfl | ⟨d, hd, hn⟩
    · exact mem_preorder.mpr (.inr ⟨c, hc, self_mem_preorder c⟩)
    · exact mem_preorder.mpr (.inr ⟨d, hd, ih d hd hn⟩)

theorem DocumentOrder.child {t c : Concrete} (h : DocumentOrder t) (hc : c ∈ t.children) :
    DocumentOrder c :=
  fun n hn => h n (mem_preorder.mpr (.inr ⟨c, hc, hn⟩))

/-- A node of the tree stands inside the tree. -/
theorem DocumentOrder.within {t n : Concrete} (h : DocumentOrder t) (hn : n ∈ t.preorder) :
    NoLater t.start n.start ∧ NoLater n.start n.stop ∧ NoLater n.stop t.stop := by
  induction t using Concrete.inductionOn with
  | node i cs ih =>
    obtain ⟨hspan, hchildren, -, -⟩ := h _ (self_mem_preorder _)
    rcases mem_preorder.mp hn with rfl | ⟨c, hc, hn⟩
    · exact ⟨.refl _, hspan, .refl _⟩
    · obtain ⟨hstart, hn', hstop⟩ := ih c hc (h.child hc) hn
      obtain ⟨hleft, hright⟩ := hchildren c hc
      exact ⟨hleft.trans hstart, hn', hstop.trans hright⟩

/-! ### Nodes before and after one another -/

theorem focus_mem_preorder {c d : Cursor} (h : d ∈ c.subtree) : d.focus ∈ c.focus.preorder := by
  rw [← Concrete.map_focus_cursorsFrom c.focus c.path]
  exact List.mem_map_of_mem h

theorem focus_mem_children {c d : Cursor} (h : d.parent? = some c) :
    d.focus ∈ c.focus.children := by
  obtain ⟨f, path⟩ := d
  cases path with
  | nil => cases h
  | cons k path =>
    cases h
    simp [Concrete.children]

theorem DocumentOrder.cursor {c d : Cursor} (h : DocumentOrder c.focus) (hd : d ∈ c.subtree) :
    DocumentOrder d.focus := by
  induction c using Cursor.inductionOn with
  | step c ih =>
    rw [Cursor.subtree_eq, List.mem_cons, List.mem_flatMap] at hd
    rcases hd with rfl | ⟨e, he, hd⟩
    · exact h
    · exact ih e he (h.child (focus_mem_children (Cursor.mem_children.mp he))) hd

/-- A node of a subtree is its root or has its parent there. -/
theorem parent_mem_subtree {c d : Cursor} (h : d ∈ c.subtree) :
    d = c ∨ ∃ up ∈ c.subtree, d.parent? = some up := by
  induction c using Cursor.inductionOn with
  | step c ih =>
    rw [Cursor.subtree_eq, List.mem_cons, List.mem_flatMap] at h
    rcases h with rfl | ⟨e, he, hd⟩
    · exact .inl rfl
    · right
      rcases ih e he hd with rfl | ⟨up, hup, hparent⟩
      · exact ⟨c, Cursor.self_mem_subtree c, Cursor.mem_children.mp he⟩
      · refine ⟨up, ?_, hparent⟩
        rw [Cursor.subtree_eq]
        exact List.mem_cons_of_mem _ (List.mem_flatMap.mpr ⟨e, he, hup⟩)

theorem previousSibling_before {b up : Cursor} (hup : b.parent? = some up)
    (h : DocumentOrder up.focus) {n : Concrete} (hn : n ∈ b.previousSiblings) :
    n ∈ up.focus.children ∧ NoLater n.stop b.focus.start := by
  obtain ⟨-, -, hordered, -⟩ := h _ (self_mem_preorder _)
  obtain ⟨f, path⟩ := b
  cases path with
  | nil => cases hup
  | cons k path =>
    cases hup
    have hleft : n ∈ k.left.reverse := List.mem_reverse.mpr hn
    exact ⟨List.mem_append_left _ hleft,
      (List.pairwise_append.mp hordered).2.2 n hleft f List.mem_cons_self⟩

/-- The header of a block does not end before it starts, nor after the block starts. -/
theorem headerEndRow_bounds {b up : Cursor} (hup : b.parent? = some up)
    (h : DocumentOrder up.focus) :
    up.focus.start.row ≤ headerEndRow b up.focus ∧
      headerEndRow b up.focus ≤ b.focus.start.row := by
  obtain ⟨-, hchildren, -, -⟩ := h _ (self_mem_preorder _)
  unfold headerEndRow
  split
  · rename_i n hfind
    obtain ⟨hchild, hbefore⟩ :=
      previousSibling_before hup h (List.mem_of_find?_eq_some hfind)
    obtain ⟨-, hspan, -⟩ := (h.child hchild).within (self_mem_preorder n)
    exact ⟨((hchildren n hchild).1.trans hspan).row_le, hbefore.row_le⟩
  · exact ⟨Nat.le_refl _, (hchildren _ (focus_mem_children hup)).1.row_le⟩

/-- The first node ends before the other one begins, and also before the header of the other one
ends if that is a block. -/
def Precedes (m c : Cursor) : Prop :=
  NoLater m.focus.stop c.focus.start ∧
    (m.focus.isTrivia = false →
      ∀ up, c.parent? = some up → m.focus.stop.row ≤ headerEndRow c up.focus)

/-- Two children of a node, the first to the left of the second. -/
def LeftOf (d e : Cursor) : Prop :=
  ∃ between rest, e.previousSiblings = between ++ d.focus :: rest ∧
    (∀ n ∈ between, NoLater d.focus.stop n.start) ∧ NoLater d.focus.stop e.focus.start

theorem pairwise_siblings (path : List Concrete.Crumb) (i : Concrete.Info)
    (left cs : List Concrete) (h : cs.Pairwise fun a b => NoLater a.stop b.start) :
    (Cursor.siblings path i left cs).Pairwise LeftOf := by
  induction cs generalizing left with
  | nil => exact .nil
  | cons d cs ih =>
    obtain ⟨hd, hcs⟩ := List.pairwise_cons.mp h
    refine List.pairwise_cons.mpr ⟨?_, ih (d :: left) hcs⟩
    intro e he
    obtain ⟨before, f, after, rfl, rfl⟩ := Cursor.mem_siblings.mp he
    refine ⟨before.reverse, left, rfl, ?_, hd f (by simp)⟩
    intro n hn
    exact hd n (by simp [List.mem_reverse.mp hn])

/-- The header of a block goes on at least to the end of every sibling before the block. -/
theorem stop_le_headerEndRow {c d e : Cursor} (h : DocumentOrder c.focus)
    (he : e.parent? = some c) (hleft : LeftOf d e) (hplain : d.focus.isTrivia = false) :
    d.focus.stop.row ≤ headerEndRow e c.focus := by
  obtain ⟨between, rest, hsiblings, hbetween, -⟩ := hleft
  unfold headerEndRow
  rw [hsiblings, List.find?_append]
  cases hfind : between.find? (!·.isTrivia) with
  | none => simp [hplain]
  | some n =>
    have hn : n ∈ between := List.mem_of_find?_eq_some hfind
    obtain ⟨hchild, -⟩ := previousSibling_before he h (hsiblings ▸ List.mem_append_left _ hn)
    obtain ⟨-, hspan, -⟩ := (h.child hchild).within (self_mem_preorder n)
    exact ((hbetween n hn).trans hspan).row_le

theorem focus_eq_of_trivia {d m : Cursor} (h : DocumentOrder d.focus)
    (htrivia : d.focus.isTrivia = true) (hm : m ∈ d.subtree) : m.focus = d.focus := by
  obtain ⟨-, -, -, hbare⟩ := h _ (self_mem_preorder _)
  have hempty := List.length_eq_zero_iff.mp (hbare htrivia)
  have hfocus := focus_mem_preorder hm
  rw [mem_preorder, hempty] at hfocus
  rcases hfocus with heq | ⟨x, hx, -⟩
  · exact heq
  · cases hx

theorem precedes_of_leftOf {c d e m n : Cursor} (h : DocumentOrder c.focus)
    (hd : d.parent? = some c) (he : e.parent? = some c) (hleft : LeftOf d e) (hm : m ∈ d.subtree)
    (hn : n ∈ e.subtree) : Precedes m n := by
  have hdorder := h.child (focus_mem_children hd)
  have heorder := h.child (focus_mem_children he)
  obtain ⟨-, -, hmd⟩ := hdorder.within (focus_mem_preorder hm)
  obtain ⟨hen, -, -⟩ := heorder.within (focus_mem_preorder hn)
  obtain ⟨-, -, -, -, hde⟩ := id hleft
  refine ⟨(hmd.trans hde).trans hen, ?_⟩
  intro hplain up hup
  rcases parent_mem_subtree hn with rfl | ⟨up', hup', hparent⟩
  · rw [he] at hup
    cases hup
    have hdplain : d.focus.isTrivia = false := by
      by_contra htrivia
      rw [focus_eq_of_trivia hdorder (by simpa using htrivia) hm] at hplain
      exact htrivia hplain
    exact Nat.le_trans hmd.row_le (stop_le_headerEndRow h he hleft hdplain)
  · rw [hparent] at hup
    cases hup
    obtain ⟨heup, -, -⟩ := heorder.within (focus_mem_preorder hup')
    obtain ⟨hheader, -⟩ := headerEndRow_bounds hparent (heorder.cursor hup')
    exact Nat.le_trans ((hmd.trans hde).trans heup).row_le hheader

/-- Of two nodes in pre-order, the second is inside the first or after it. -/
theorem pairwise_subtree (c : Cursor) (h : DocumentOrder c.focus) :
    c.subtree.Pairwise fun m n => n ∈ m.subtree ∨ Precedes m n := by
  induction c using Cursor.inductionOn with
  | step c ih =>
    obtain ⟨-, -, hordered, -⟩ := h _ (self_mem_preorder _)
    have hsiblings : c.children.Pairwise LeftOf := pairwise_siblings _ _ _ _ hordered
    rw [Cursor.subtree_eq]
    refine List.pairwise_cons.mpr ⟨?_, List.pairwise_flatMap.mpr ⟨?_, ?_⟩⟩
    · intro n hn
      left
      rw [Cursor.subtree_eq]
      exact List.mem_cons_of_mem _ hn
    · intro d hd
      exact ih d hd (h.child (focus_mem_children (Cursor.mem_children.mp hd)))
    · refine hsiblings.imp_of_mem ?_
      intro d e hd he hleft m hm n hn
      exact .inr (precedes_of_leftOf h (Cursor.mem_children.mp hd) (Cursor.mem_children.mp he) hleft
        hm hn)

/-! ### Where a check reports -/

/-- What a check of a node can report: a place where some node of it starts, or, if a block is
missing, the line after its header. -/
inductive Reported (c : Cursor) : Finding → Prop
  | inside {n : Concrete} (problem : Problem) (hn : n ∈ c.focus.preorder) :
      Reported c (n.start, problem)
  | emptyBlock {up : Cursor} (hup : c.parent? = some up) :
      Reported c (rowStart (headerEndRow c up.focus + 1), expectedBlock up.focus)
  | noBody : Reported c (rowStart (c.focus.stop.row + 1), expectedBlock c.focus)

theorem mem_preorder_of_mem_parts {n s : Concrete} (h : s ∈ n.parts) : s ∈ n.preorder := by
  have hchild : s ∈ n.children := List.mem_of_mem_filter (List.mem_of_mem_filter h)
  exact child_mem_preorder (self_mem_preorder n) hchild

theorem checkAlignment_reported {text : List Char} {column : Nat} {c : Cursor}
    {statements : List Concrete} {f : Finding} (hparts : ∀ s ∈ statements, s ∈ c.focus.preorder)
    (h : checkAlignment text column statements = some f) : Reported c f := by
  obtain ⟨s, hfind, rfl⟩ := Option.map_eq_some_iff.mp h
  exact .inside _ (hparts s (List.mem_of_find?_eq_some hfind))

theorem checkBlock_reported {text : List Char} {c : Cursor} {f : Finding}
    (h : checkBlock text c = some f) : Reported c f := by
  have hparts : ∀ s ∈ c.focus.parts, s ∈ c.focus.preorder := fun s => mem_preorder_of_mem_parts
  unfold checkBlock at h
  split at h
  · cases h
  · rename_i up hup
    simp only at h
    split at h
    · cases h
      exact .emptyBlock hup
    · rename_i first rest hcons
      rw [hcons] at hparts
      split at h
      · cases h
      · split at h
        · cases h
          exact .inside _ (hparts first List.mem_cons_self)
        · exact checkAlignment_reported hparts h

theorem checkHasBody_reported {c : Cursor} {f : Finding} (h : checkHasBody c.focus = some f) :
    Reported c f := by
  unfold checkHasBody at h
  split at h
  · cases h
  · cases h
    exact .noBody

theorem checkParameterOrder_reported {c : Cursor} {seenDefault : Bool} {ps : List Concrete}
    {f : Finding} (hparts : ∀ s ∈ ps, s ∈ c.focus.preorder)
    (h : checkParameterOrder seenDefault ps = some f) : Reported c f := by
  fun_induction checkParameterOrder seenDefault ps with
  | case1 => cases h
  | case2 seenDefault p ps hrole ih => exact ih (fun s hs => hparts s (by simp [hs])) h
  | case3 => cases h
  | case4 p ps hrole =>
    cases h
    exact .inside _ (hparts p List.mem_cons_self)
  | case5 seenDefault p ps hrole hseen ih => exact ih (fun s hs => hparts s (by simp [hs])) h
  | case6 seenDefault p ps hrole ih => exact ih (fun s hs => hparts s (by simp [hs])) h

theorem checkComprehensionSource_reported {c : Cursor} {f : Finding}
    (h : checkComprehensionSource c = some f) : Reported c f := by
  unfold checkComprehensionSource at h
  split at h
  · rename_i first second rest hsources
    cases h
    have hmem : second ∈ (c.focus.childrenByField "right").filter (·.info.named) := by
      simp [hsources]
    have hchild : second ∈ c.focus.children :=
      List.mem_of_mem_filter (List.mem_of_mem_filter hmem)
    exact .inside _ (child_mem_preorder (self_mem_preorder _) hchild)
  · cases h

theorem invalidTargetIn?_mem {cs : List Concrete} {n : Concrete}
    (h : invalidTargetIn? cs = some n) : ∃ c ∈ cs, invalidTarget? c = some n := by
  induction cs with
  | nil => cases h
  | cons c cs ih =>
    have hrest (h : invalidTargetIn? cs = some n) : ∃ d ∈ c :: cs, invalidTarget? d = some n := by
      obtain ⟨d, hd, hn⟩ := ih h
      exact ⟨d, List.mem_cons_of_mem _ hd, hn⟩
    rw [invalidTargetIn?] at h
    split at h
    · split at h
      · rename_i hc
        cases h
        exact ⟨c, List.mem_cons_self, hc⟩
      · exact hrest h
    · exact hrest h

theorem invalidTarget?_mem {t n : Concrete} (h : invalidTarget? t = some n) : n ∈ t.preorder := by
  induction t using Concrete.inductionOn with
  | node i cs ih =>
    rw [invalidTarget?] at h
    split at h
    · cases h
    · split at h
      · obtain ⟨c, hc, hn⟩ := invalidTargetIn?_mem h
        exact mem_preorder.mpr (.inr ⟨c, hc, ih c hc hn⟩)
      · cases h
        exact self_mem_preorder _

theorem checkDeleteTargets_reported {c : Cursor} {f : Finding}
    (h : checkDeleteTargets c.focus = some f) : Reported c f := by
  obtain ⟨n, hn, rfl⟩ := Option.map_eq_some_iff.mp h
  obtain ⟨d, hd, hn⟩ := invalidTargetIn?_mem hn
  exact .inside _ (mem_preorder.mpr (.inr ⟨d, hd, invalidTarget?_mem hn⟩))

theorem check_reported {text : List Char} {c : Cursor} {f : Finding} (h : check text c = some f) :
    Reported c f := by
  have hparts : ∀ s ∈ c.focus.parts, s ∈ c.focus.preorder := fun s => mem_preorder_of_mem_parts
  have hchildren : ∀ s ∈ c.focus.children, s ∈ c.focus.preorder :=
    fun s => child_mem_preorder (self_mem_preorder _)
  unfold check at h
  simp only at h
  split at h
  · exact checkAlignment_reported hparts h
  · exact checkBlock_reported h
  · exact checkHasBody_reported h
  · exact checkHasBody_reported h
  · exact checkParameterOrder_reported hchildren h
  · exact checkParameterOrder_reported hchildren h
  · obtain ⟨s, hfind, rfl⟩ := Option.map_eq_some_iff.mp h
    exact .inside _ (hparts s (List.mem_of_find?_eq_some hfind))
  · exact checkComprehensionSource_reported h
  · exact checkDeleteTargets_reported h
  · cases h

theorem not_trivia_of_check {text : List Char} {c : Cursor} {f : Finding}
    (h : check text c = some f) : c.focus.isTrivia = false := by
  by_contra htrivia
  rw [Bool.not_eq_false, Concrete.isTrivia, Bool.or_eq_true, beq_iff_eq, beq_iff_eq] at htrivia
  rcases htrivia with hkind | hkind
  · simp [check, hkind] at h
  · simp [check, hkind] at h

/-! ### The reported problem and the others -/

/-- The problem is that a block is missing; its place is then the line after the header. -/
def LacksBlock (problem : Problem) : Prop := ∃ header line, problem = .expectedBlock header line

/-- A problem of a later node stands no earlier, unless a block is missing and the later node is on
the line of the header. -/
theorem noLater_of_precedes {m c : Cursor} {f g : Finding} (hm : Reported m f) (hc : Reported c g)
    (hplain : m.focus.isTrivia = false) (hmorder : DocumentOrder m.focus)
    (hcorder : DocumentOrder c.focus) (hmup : ∀ up, m.parent? = some up → DocumentOrder up.focus)
    (hprecedes : Precedes m c) :
    NoLater f.1 g.1 ∨ LacksBlock f.2 ∧ c.focus.start.row + 1 = f.1.row := by
  obtain ⟨hafter, hheader⟩ := hprecedes
  have hafter' := hafter.row_le
  -- a report on the line after a header that ends on row `r`, no later than `m`
  have hlacks (r : Nat) (header : Concrete) (hr : r ≤ m.focus.stop.row) :
      NoLater (rowStart (r + 1)) g.1 ∨
        LacksBlock (expectedBlock header) ∧ c.focus.start.row + 1 = r + 1 := by
    cases hc with
    | inside problem hn =>
      have hstart := (hcorder.within hn).1.row_le
      by_cases hrow : c.focus.start.row = r
      · exact .inr ⟨⟨_, _, rfl⟩, by omega⟩
      · have hbelow : r + 1 ≤ c.focus.start.row := by omega
        exact .inl (rowStart_noLater (Nat.le_trans hbelow hstart))
    | emptyBlock hup =>
      have hend := hheader hplain _ hup
      exact .inl (rowStart_noLater (by simp only [rowStart]; omega))
    | noBody =>
      have hspan := (hcorder.within (self_mem_preorder _)).2.1.row_le
      exact .inl (rowStart_noLater (by simp only [rowStart]; omega))
  cases hm with
  | inside problem hn =>
    obtain ⟨-, hspan, hstop⟩ := hmorder.within hn
    have hbefore := hspan.trans hstop
    refine .inl ?_
    cases hc with
    | inside problem hn' => exact (hbefore.trans hafter).trans (hcorder.within hn').1
    | emptyBlock hup =>
      have hend := hheader hplain _ hup
      have hrow := hbefore.row_le
      exact .inl (by simp only [rowStart]; omega)
    | noBody =>
      have hrow := (hbefore.trans hafter).row_le
      have hspan' := (hcorder.within (self_mem_preorder _)).2.1.row_le
      exact .inl (by simp only [rowStart]; omega)
  | emptyBlock hup =>
    have hend := (headerEndRow_bounds hup (hmup _ hup)).2
    have hspan := (hmorder.within (self_mem_preorder _)).2.1.row_le
    exact hlacks _ _ (Nat.le_trans hend hspan)
  | noBody => exact hlacks _ _ (Nat.le_refl _)

/-- In a tree in document order, the reported problem is the earliest of all structural problems
exactly if it is the earliest among those inside the node that is reported (and, where a block is
missing, those on the line of its header): no other problem stands before it. -/
theorem earliest_iff_inside (text : List Char) (t : Concrete) (p : Point) (problem : Problem)
    (horder : DocumentOrder t) (hfirst : firstStructuralProblem? text t = some (p, problem)) :
    ∃ before m after, cursors t = before ++ m :: after ∧ (∀ b ∈ before, check text b = none) ∧
      check text m = some (p, problem) ∧
      ((∀ c ∈ cursors t, ∀ q other, check text c = some (q, other) → NoLater p q) ↔
        ∀ c ∈ cursors t, c ∈ m.subtree ∨ LacksBlock problem ∧ c.focus.start.row + 1 = p.row →
          ∀ q other, check text c = some (q, other) → NoLater p q) := by
  rw [firstStructuralProblem?_eq, List.findSome?_eq_some_iff] at hfirst
  obtain ⟨before, m, after, hsplit, hm, hbefore⟩ := hfirst
  refine ⟨before, m, after, hsplit, hbefore, hm, ?_⟩
  constructor
  · intro hall c hc _
    exact hall c hc
  · intro hinside c hc q other hcheck
    have hroot (d : Cursor) (hd : d ∈ cursors t) : DocumentOrder d.focus :=
      DocumentOrder.cursor (c := Cursor.ofRoot t) horder hd
    have hmt : m ∈ cursors t := by simp [hsplit]
    have hmup (up : Cursor) (hup : m.parent? = some up) : DocumentOrder up.focus := by
      refine hroot up (Concrete.mem_cursors.mpr ?_)
      rw [← Cursor.root_of_parent hup, Concrete.mem_cursors.mp hmt]
    have hpairs := pairwise_subtree (Cursor.ofRoot t) horder
    rw [Cursor.subtree_ofRoot, hsplit, List.pairwise_append, List.pairwise_cons] at hpairs
    obtain ⟨-, ⟨hlater, -⟩, -⟩ := hpairs
    have hcsplit := hsplit ▸ hc
    rcases List.mem_append.mp hcsplit with hcbefore | hcafter
    · rw [hbefore c hcbefore] at hcheck
      cases hcheck
    · rcases List.mem_cons.mp hcafter with rfl | hcafter
      · exact hinside c hc (.inl (Cursor.self_mem_subtree c)) q other hcheck
      · rcases hlater c hcafter with hsub | hprecedes
        · exact hinside c hc (.inl hsub) q other hcheck
        · rcases noLater_of_precedes (check_reported hm) (check_reported hcheck)
            (not_trivia_of_check hm) (hroot m hmt) (hroot c hc) hmup hprecedes with hle | hline
          · exact hle
          · exact hinside c hc (.inr hline) q other hcheck

def deletionsText : List Char := "del 1\ndel 2\n".toList

/-- The tree of `deletionsText`: two statements with a problem each. -/
def deletionsTree : Concrete :=
  soundNode "module" true none ⟨0, 0, 0⟩ ⟨2, 0, 12⟩ [
    soundNode "delete_statement" true none ⟨0, 0, 0⟩ ⟨0, 5, 5⟩ [
      soundNode "del" false none ⟨0, 0, 0⟩ ⟨0, 3, 3⟩ [],
      soundNode "integer" true none ⟨0, 4, 4⟩ ⟨0, 5, 5⟩ []],
    soundNode "delete_statement" true none ⟨1, 0, 6⟩ ⟨1, 5, 11⟩ [
      soundNode "del" false none ⟨1, 0, 6⟩ ⟨1, 3, 9⟩ [],
      soundNode "integer" true none ⟨1, 4, 10⟩ ⟨1, 5, 11⟩ []]]

theorem deletionsTree_first :
    firstStructuralProblem? deletionsText deletionsTree =
      some (⟨0, 4, 4⟩, .deletesExpression) := by
  rw [firstStructuralProblem?_eq]
  decide +kernel

/-- The first deletion is reported, and the second one, which is outside it, comes later. -/
theorem deletionsTree_earliest :
    DocumentOrder deletionsTree ∧
    firstStructuralProblem? deletionsText deletionsTree = some (⟨0, 4, 4⟩, .deletesExpression) ∧
    ∃ before m after, cursors deletionsTree = before ++ m :: after ∧
      (∀ b ∈ before, check deletionsText b = none) ∧
      check deletionsText m = some (⟨0, 4, 4⟩, .deletesExpression) ∧
      ((∀ c ∈ cursors deletionsTree, ∀ q other, check deletionsText c = some (q, other) →
          NoLater ⟨0, 4, 4⟩ q) ↔
        ∀ c ∈ cursors deletionsTree,
          c ∈ m.subtree ∨ LacksBlock .deletesExpression ∧ c.focus.start.row + 1 = 0 →
            ∀ q other, check deletionsText c = some (q, other) → NoLater ⟨0, 4, 4⟩ q) := by
  have horder : DocumentOrder deletionsTree := by decide +kernel
  exact ⟨horder, deletionsTree_first,
    earliest_iff_inside deletionsText deletionsTree _ _ horder deletionsTree_first⟩

def misplacedText : List Char := "del 1\n  y\n".toList

/-- The tree of `misplacedText`: a bad deletion, and below it a statement that is indented. -/
def misplacedTree : Concrete :=
  soundNode "module" true none ⟨0, 0, 0⟩ ⟨2, 0, 10⟩ [
    soundNode "delete_statement" true none ⟨0, 0, 0⟩ ⟨0, 5, 5⟩ [
      soundNode "del" false none ⟨0, 0, 0⟩ ⟨0, 3, 3⟩ [],
      soundNode "integer" true none ⟨0, 4, 4⟩ ⟨0, 5, 5⟩ []],
    soundNode "expression_statement" true none ⟨1, 2, 8⟩ ⟨1, 3, 9⟩ [
      soundNode "identifier" true none ⟨1, 2, 8⟩ ⟨1, 3, 9⟩ []]]

/-- The module is checked before the deletion inside it, so the indentation on the second line is
reported and not the deletion on the first. -/
theorem misplaced_overtaken :
    DocumentOrder misplacedTree ∧ (∀ n ∈ misplacedTree.preorder, ¬ IsProblem n) ∧
    firstStructuralProblem? misplacedText misplacedTree =
      some (⟨1, 2, 8⟩, .unexpectedIndent) ∧
    ∃ c ∈ cursors misplacedTree,
      check misplacedText c = some (⟨0, 4, 4⟩, .deletesExpression) ∧
        ¬ NoLater ⟨1, 2, 8⟩ ⟨0, 4, 4⟩ := by
  have hproblem : ∀ n ∈ misplacedTree.preorder, nodeProblem? n = none := by decide +kernel
  refine ⟨by decide +kernel, fun n hn => nodeProblem?_eq_none.mp (hproblem n hn), ?_,
    _, List.get_mem (cursors misplacedTree) ⟨1, by decide⟩, by decide +kernel, by decide⟩
  rw [firstStructuralProblem?_eq]
  decide +kernel

end SourceAudit.Syntax
