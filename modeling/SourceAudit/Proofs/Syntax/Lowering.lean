import Mathlib.Data.List.Basic
import Mathlib.Data.List.Flatten
import SourceAudit.Proofs.Concrete.Cursor
import SourceAudit.Proofs.Syntax.Walk
import SourceAudit.Syntax.Lower

/-!
Which nodes a syntax tree keeps. The walk over it lists the kept nodes of the concrete syntax tree
in pre-order, with their kinds and places (`walk_lower`).
-/

namespace SourceAudit.Syntax

open SourceAudit.Concrete (Cursor cursors)
open SourceAudit.Concrete.Cursor (ofRoot)

/-! ### Kept nodes -/

/-- The node itself, and the strings that named-child steps through strings lead to from it. -/
inductive Through (n : Cursor) : Cursor → Prop
  | self : Through n n
  | string {s d : Cursor} (hs : Through n s) (hd : d.parent? = some s)
      (hnamed : d.focus.info.named = true) (hkind : d.focus.kind = "string") : Through n d

/-- The kept nodes of a tree: the root; of a node that is no string literal the named children that
are no trivia; of a string literal the interpolations that named-child steps through strings lead
to. -/
inductive Kept (t : Concrete) : Cursor → Prop
  | root : Kept t (ofRoot t)
  | part {c d : Cursor} (hc : Kept t c) (hplain : isLiteral c.focus = false)
      (hd : d.parent? = some c) (hnamed : d.focus.info.named = true)
      (htrivia : d.focus.isTrivia = false) : Kept t d
  | interpolation {c s d : Cursor} (hc : Kept t c) (hliteral : isLiteral c.focus = true)
      (hs : Through c s) (hd : d.parent? = some s) (hnamed : d.focus.info.named = true)
      (hkind : d.focus.kind = "interpolation") : Kept t d

/-! ### Kept nodes as a list -/

theorem size_mem_lt {c : Concrete} {cs : List Concrete} (h : c ∈ cs) :
    c.size ≤ Concrete.sizeList cs := by
  induction cs with
  | nil => cases h
  | cons d cs ih =>
    rw [Concrete.sizeList]
    rcases List.mem_cons.mp h with rfl | h
    · omega
    · have := ih h
      omega

theorem size_child_lt {c d : Cursor} (h : d ∈ c.children) : d.focus.size < c.focus.size := by
  obtain ⟨⟨i, cs⟩, path⟩ := c
  have hmem : d.focus ∈ cs := by
    have := List.mem_map_of_mem (f := Cursor.focus) h
    rwa [Cursor.children, Cursor.map_focus_siblings] at this
  have hle := size_mem_lt hmem
  rw [Concrete.size]
  omega

/-- The interpolations of a string literal. -/
def interpolations (c : Cursor) : List Cursor :=
  c.children.attach.flatMap fun d =>
    if d.1.focus.info.named && d.1.focus.kind = "interpolation" then [d.1]
    else if d.1.focus.info.named && d.1.focus.kind = "string" then interpolations d.1
    else []
termination_by c.focus.size
decreasing_by
  exact size_child_lt d.2

/-- What a child of a string literal adds to its interpolations. -/
def interpolationsIn (d : Cursor) : List Cursor :=
  if d.focus.info.named && d.focus.kind = "interpolation" then [d]
  else if d.focus.info.named && d.focus.kind = "string" then interpolations d
  else []

theorem interpolations_eq (c : Cursor) : interpolations c = c.children.flatMap interpolationsIn := by
  rw [interpolations, List.flatMap_subtype (g := interpolationsIn) fun d hd => rfl,
    List.unattach_attach]

theorem interpolationsIn_cases (d : Cursor) :
    (d.focus.info.named = true ∧ d.focus.kind = "interpolation" ∧ interpolationsIn d = [d]) ∨
      (d.focus.info.named = true ∧ d.focus.kind = "string" ∧
        interpolationsIn d = interpolations d) ∨
      interpolationsIn d = [] := by
  unfold interpolationsIn
  split
  · rename_i h
    simp only [Bool.and_eq_true, decide_eq_true_eq] at h
    exact .inl ⟨h.1, h.2, rfl⟩
  · split
    · rename_i h
      simp only [Bool.and_eq_true, decide_eq_true_eq] at h
      exact .inr (.inl ⟨h.1, h.2, rfl⟩)
    · exact .inr (.inr rfl)

/-- The named children that are no trivia. -/
def partsOf (c : Cursor) : List Cursor :=
  c.children.filter fun d => d.focus.info.named && !d.focus.isTrivia

/-- The nodes below a kept node that are kept because of it. -/
def keptChildren (c : Cursor) : List Cursor :=
  if isLiteral c.focus then interpolations c else partsOf c

theorem keptChildren_cases (c : Cursor) :
    (isLiteral c.focus = true ∧ keptChildren c = interpolations c) ∨
      (isLiteral c.focus = false ∧ keptChildren c = partsOf c) := by
  cases h : isLiteral c.focus <;> simp [keptChildren, h]

theorem size_interpolation_lt {c d : Cursor} (h : d ∈ interpolations c) :
    d.focus.size < c.focus.size := by
  induction c using Cursor.inductionOn with
  | step c ih =>
    rw [interpolations_eq, List.mem_flatMap] at h
    obtain ⟨e, he, hd⟩ := h
    have hlt := size_child_lt he
    rcases interpolationsIn_cases e with ⟨-, -, heq⟩ | ⟨-, -, heq⟩ | heq
    · rw [heq] at hd
      rwa [List.mem_singleton.mp hd]
    · rw [heq] at hd
      exact Nat.lt_trans (ih e he hd) hlt
    · rw [heq] at hd
      cases hd

theorem size_keptChild_lt {c d : Cursor} (h : d ∈ keptChildren c) :
    d.focus.size < c.focus.size := by
  rcases keptChildren_cases c with ⟨-, heq⟩ | ⟨-, heq⟩
  · rw [heq] at h
    exact size_interpolation_lt h
  · rw [heq] at h
    exact size_child_lt (List.mem_filter.mp h).1

/-- The node and the nodes below it that are kept if it is, in pre-order. -/
def kept (c : Cursor) : List Cursor := c :: (keptChildren c).attach.flatMap fun d => kept d.1
termination_by c.focus.size
decreasing_by
  exact size_keptChild_lt d.2

theorem kept_eq (c : Cursor) : kept c = c :: (keptChildren c).flatMap kept := by
  rw [kept, List.flatMap_subtype (g := kept) fun d hd => rfl, List.unattach_attach]

/-- Induction down the kept nodes. -/
@[elab_as_elim]
theorem keptInduction {P : Cursor → Prop} (step : ∀ c, (∀ d ∈ keptChildren c, P d) → P c)
    (c : Cursor) : P c := by
  induction hsize : c.focus.size using Nat.strongRecOn generalizing c with
  | ind n ih =>
    apply step
    intro d hd
    exact ih d.focus.size (hsize ▸ size_keptChild_lt hd) d rfl

/-! ### The order of the kept nodes -/

theorem interpolations_flatMap_sublist {g : Cursor → List Cursor} {c : Cursor}
    (h : ∀ d ∈ interpolations c, (g d).Sublist d.subtree) :
    ((interpolations c).flatMap g).Sublist (c.children.flatMap Cursor.subtree) := by
  induction c using Cursor.inductionOn with
  | step c ih =>
    rw [interpolations_eq, List.flatMap_assoc]
    apply List.Sublist.flatMap_right
    intro e he
    have hmem : ∀ d ∈ interpolationsIn e, (g d).Sublist d.subtree := by
      intro d hd
      apply h
      rw [interpolations_eq]
      exact List.mem_flatMap.mpr ⟨e, he, hd⟩
    rcases interpolationsIn_cases e with ⟨-, -, heq⟩ | ⟨-, -, heq⟩ | heq
    · rw [heq] at hmem ⊢
      simpa using hmem e (by simp)
    · rw [heq] at hmem ⊢
      rw [Cursor.subtree_eq]
      exact (ih e he hmem).cons e
    · rw [heq]
      exact List.nil_sublist _

theorem kept_sublist (c : Cursor) : (kept c).Sublist c.subtree := by
  induction c using keptInduction with
  | step c ih =>
    rw [kept_eq, Cursor.subtree_eq]
    apply List.Sublist.cons_cons
    rcases keptChildren_cases c with ⟨-, heq⟩ | ⟨-, heq⟩
    · rw [heq] at ih ⊢
      exact interpolations_flatMap_sublist ih
    · rw [heq] at ih ⊢
      have hparts : (partsOf c).Sublist c.children := List.filter_sublist
      exact (List.Sublist.flatMap_right _ ih).trans (hparts.flatMap _)

/-! ### The kept nodes are those of the list -/

theorem Through.trans {a b c : Cursor} (h : Through a b) (h' : Through b c) : Through a c := by
  induction h' with
  | self => exact h
  | string hs hd hnamed hkind ih => exact .string ih hd hnamed hkind

theorem through_of_mem_interpolations {c d : Cursor} (h : d ∈ interpolations c) :
    ∃ s, Through c s ∧ d.parent? = some s ∧ d.focus.info.named = true ∧
      d.focus.kind = "interpolation" := by
  induction c using Cursor.inductionOn with
  | step c ih =>
    rw [interpolations_eq, List.mem_flatMap] at h
    obtain ⟨e, he, hd⟩ := h
    have hparent := Cursor.mem_children.mp he
    rcases interpolationsIn_cases e with ⟨hnamed, hkind, heq⟩ | ⟨hnamed, hkind, heq⟩ | heq
    · rw [heq] at hd
      rw [List.mem_singleton.mp hd]
      exact ⟨c, .self, hparent, hnamed, hkind⟩
    · rw [heq] at hd
      obtain ⟨s, hs, hrest⟩ := ih e he hd
      exact ⟨s, (Through.string .self hparent hnamed hkind).trans hs, hrest⟩
    · rw [heq] at hd
      cases hd

theorem interpolations_subset {c s : Cursor} (h : Through c s) :
    interpolations s ⊆ interpolations c := by
  induction h with
  | self => exact List.Subset.refl _
  | @string s d hs hd hnamed hkind ih =>
    refine List.Subset.trans ?_ ih
    intro e he
    rw [interpolations_eq s]
    refine List.mem_flatMap.mpr ⟨d, Cursor.mem_children.mpr hd, ?_⟩
    simpa [interpolationsIn, hnamed, hkind] using he

theorem mem_interpolations {c s d : Cursor} (hs : Through c s) (hd : d.parent? = some s)
    (hnamed : d.focus.info.named = true) (hkind : d.focus.kind = "interpolation") :
    d ∈ interpolations c := by
  apply interpolations_subset hs
  rw [interpolations_eq]
  refine List.mem_flatMap.mpr ⟨d, Cursor.mem_children.mpr hd, ?_⟩
  simp [interpolationsIn, hnamed, hkind]

theorem Kept.keptChild {t : Concrete} {c d : Cursor} (hc : Kept t c) (hd : d ∈ keptChildren c) :
    Kept t d := by
  rcases keptChildren_cases c with ⟨hliteral, heq⟩ | ⟨hplain, heq⟩
  · rw [heq] at hd
    obtain ⟨s, hs, hparent, hnamed, hkind⟩ := through_of_mem_interpolations hd
    exact .interpolation hc hliteral hs hparent hnamed hkind
  · rw [heq, partsOf, List.mem_filter] at hd
    obtain ⟨hchild, hpart⟩ := hd
    simp only [Bool.and_eq_true, Bool.not_eq_true'] at hpart
    exact .part hc hplain (Cursor.mem_children.mp hchild) hpart.1 hpart.2

theorem Kept.of_mem_kept {t : Concrete} {c : Cursor} (hc : Kept t c) :
    ∀ d ∈ kept c, Kept t d := by
  induction c using keptInduction with
  | step c ih =>
    rw [kept_eq, List.forall_mem_cons]
    refine ⟨hc, ?_⟩
    intro d hd
    obtain ⟨e, he, hd⟩ := List.mem_flatMap.mp hd
    exact ih e he (hc.keptChild he) d hd

theorem self_mem_kept (c : Cursor) : c ∈ kept c := by
  rw [kept_eq]
  simp

theorem keptChild_mem_kept {c d e : Cursor} (hd : d ∈ kept c) (he : e ∈ keptChildren d) :
    e ∈ kept c := by
  induction c using keptInduction with
  | step c ih =>
    rw [kept_eq, List.mem_cons, List.mem_flatMap] at hd ⊢
    rcases hd with rfl | ⟨f, hf, hd⟩
    · exact .inr ⟨e, he, self_mem_kept e⟩
    · exact .inr ⟨f, hf, ih f hf hd⟩

theorem mem_kept {t : Concrete} {c : Cursor} : c ∈ kept (ofRoot t) ↔ Kept t c := by
  constructor
  · intro h
    exact Kept.root.of_mem_kept c h
  · intro h
    induction h with
    | root => exact self_mem_kept _
    | @part c d hc hplain hd hnamed htrivia ih =>
      apply keptChild_mem_kept ih
      simp [keptChildren, hplain, partsOf, Cursor.mem_children, hd, hnamed, htrivia]
    | @interpolation c s d hc hliteral hs hd hnamed hkind ih =>
      apply keptChild_mem_kept ih
      simpa [keptChildren, hliteral] using mem_interpolations hs hd hnamed hkind

/-! ### The syntax tree of the kept nodes -/

theorem lowerParts_eq (text : List Char) (cs : List Concrete) :
    lowerParts text cs =
      (cs.filter fun c => c.info.named && !c.isTrivia).map (lower text) := by
  induction cs with
  | nil => rfl
  | cons c cs ih =>
    rw [lowerParts, List.filter_cons]
    split
    · rw [List.map_cons, ih]
    · exact ih

theorem focus_children (c : Cursor) : c.focus.children = c.children.map Cursor.focus := by
  rw [Cursor.children, Cursor.map_focus_siblings]

theorem lowerInterpolations_cons (text : List Char) (n : Concrete) (cs : List Concrete) :
    lowerInterpolations text (n :: cs) =
      (if n.info.named && n.kind = "interpolation" then [lower text n]
        else if n.info.named && n.kind = "string" then lowerInterpolations text n.children
        else []) ++ lowerInterpolations text cs := by
  obtain ⟨i, ds⟩ := n
  change _ = (if i.named && i.kind = "interpolation" then [lower text (.node i ds)]
    else if i.named && i.kind = "string" then lowerInterpolations text ds else []) ++
      lowerInterpolations text cs
  by_cases hkind : i.named = true ∧ i.kind = "interpolation"
  · simp [lowerInterpolations, hkind]
  · by_cases hstring : i.named = true ∧ i.kind = "string"
    · simp [lowerInterpolations, hstring]
    · simp [lowerInterpolations, hkind, hstring]

theorem lowerInterpolations_eq (text : List Char) (c : Cursor) :
    lowerInterpolations text c.focus.children =
      (interpolations c).map fun d => lower text d.focus := by
  induction c using Cursor.inductionOn with
  | step c ih =>
    rw [focus_children, interpolations_eq]
    generalize c.children = ds at ih
    induction ds with
    | nil => rfl
    | cons d ds ihds =>
      have hds := ihds fun e he => ih e (by simp [he])
      rw [List.map_cons, lowerInterpolations_cons, List.flatMap_cons, List.map_append, hds,
        interpolationsIn, ih d (by simp)]
      split
      · rfl
      · split
        · rfl
        · rfl

theorem lower_eq (text : List Char) (c : Cursor) :
    lower text c.focus =
      .mk (kindOf text c.focus) (c.focus.start.row + 1) (c.focus.start.column + 1)
        ((keptChildren c).map fun d => lower text d.focus) := by
  have hlower : lower text c.focus =
      .mk (kindOf text c.focus) (c.focus.start.row + 1) (c.focus.start.column + 1)
        (if isLiteral c.focus then lowerInterpolations text c.focus.children
          else lowerParts text c.focus.children) := by
    obtain ⟨⟨i, cs⟩, path⟩ := c
    rw [lower]
    rfl
  rw [hlower]
  congr 1
  rcases keptChildren_cases c with ⟨hliteral, heq⟩ | ⟨hplain, heq⟩
  · rw [hliteral, heq]
    exact lowerInterpolations_eq text c
  · rw [hplain, heq, lowerParts_eq, focus_children, List.filter_map, List.map_map]
    rfl

/-- What a walk shows of a node. -/
def shown (n : Node) : Kind × Nat × Nat := (n.kind, n.line, n.column)

/-- What a walk should show of a node of the concrete syntax tree. -/
def shownAs (text : List Char) (n : Concrete) : Kind × Nat × Nat :=
  (kindOf text n, n.start.row + 1, n.start.column + 1)

theorem map_shown_walk (text : List Char) (c : Cursor) :
    (lower text c.focus).walk.map shown = (kept c).map fun d => shownAs text d.focus := by
  induction c using keptInduction with
  | step c ih =>
    have hshown : shown (lower text c.focus) = shownAs text c.focus := by
      rw [lower_eq]
      rfl
    have hchildren : (lower text c.focus).children =
        (keptChildren c).map fun d => lower text d.focus := by
      rw [lower_eq]
      rfl
    rw [kept_eq, Node.walk_eq, List.map_cons, List.map_cons, hshown, hchildren, List.flatMap_map,
      List.map_flatMap, List.map_flatMap]
    congr 1
    exact List.flatMap_congr ih

/-! ### Kinds -/

/-- The grammar kinds that are told apart. -/
def specialTags : List String :=
  ["module", "function_definition", "class_definition", "try_statement", "except_clause",
    "except_group_clause", "import_statement", "import_from_statement", "future_import_statement"]

/-- The kind stands for the grammar kind. -/
def Corresponds (tag : String) : Kind → Prop
  | .module _ => tag = "module"
  | .function .. => tag = "function_definition"
  | .class .. => tag = "class_definition"
  | .try _ => tag = "try_statement"
  | .exceptHandler => tag = "except_clause" ∨ tag = "except_group_clause"
  | .imports _ => tag = "import_statement"
  | .importsFrom .. => tag = "import_from_statement" ∨ tag = "future_import_statement"
  | .other name => name = tag ∧ tag ∉ specialTags

theorem kindOf_corresponds (text : List Char) (n : Concrete) :
    Corresponds n.kind (kindOf text n) := by
  unfold kindOf
  split <;> simp_all [Corresponds, specialTags]

/-- The walk over a syntax tree lists the kept nodes of the concrete syntax tree, each once and in
pre-order, with their kinds and places. -/
theorem walk_lower (text : List Char) (t : Concrete) :
    (∃ nodes : List Cursor,
      (lower text t).walk.map shown = nodes.map (fun c => shownAs text c.focus) ∧
      (∀ c, c ∈ nodes ↔ Kept t c) ∧ nodes.Sublist (cursors t) ∧ nodes.Nodup ∧
      ∀ c ∈ nodes, Corresponds c.focus.kind (kindOf text c.focus)) ∧
    (cursors t).map Cursor.focus = t.preorder := by
  refine ⟨?_, Concrete.map_focus_cursors t⟩
  have hsub : (kept (ofRoot t)).Sublist (cursors t) := kept_sublist (ofRoot t)
  exact ⟨kept (ofRoot t), map_shown_walk text (ofRoot t), fun c => mem_kept, hsub,
    hsub.nodup (Concrete.nodup_cursors t), fun c _ => kindOf_corresponds text c.focus⟩

end SourceAudit.Syntax
