import SourceAudit.Proofs.Syntax.DocumentOrder
import SourceAudit.Proofs.Syntax.Lowering

/-!
Comments and line continuations carry no meaning. If they are taken out of a concrete syntax tree,
the nodes that are left have the same places, fields and order, and the verdict on the tree is the
same: the same problem at the same place, or the same syntax tree (`judge_withoutTrivia`). Each
check and each part of the lowering has one lemma that says so for itself.
-/

namespace SourceAudit

theorem Syntax.mem_preorder_trans {t n m : Concrete} (hn : n ∈ t.preorder) (hm : m ∈ n.preorder) :
    m ∈ t.preorder := by
  induction t using Concrete.inductionOn with
  | node i cs ih =>
    rcases mem_preorder.mp hn with rfl | ⟨c, hc, hn⟩
    · exact hm
    · exact mem_preorder.mpr (.inr ⟨c, hc, ih c hc hn⟩)

namespace Concrete

/-! ### Taking trivia out -/

mutual

/-- The tree without the trivia below its root. -/
def withoutTrivia : Concrete → Concrete
  | .node i cs => .node i (withoutTriviaList cs)

/-- The trees of a list that are no trivia, without the trivia in them. -/
def withoutTriviaList : List Concrete → List Concrete
  | [] => []
  | c :: cs =>
    if c.isTrivia then withoutTriviaList cs else c.withoutTrivia :: withoutTriviaList cs

end

theorem withoutTriviaList_eq (cs : List Concrete) :
    withoutTriviaList cs = (cs.filter (!·.isTrivia)).map withoutTrivia := by
  induction cs with
  | nil => rfl
  | cons c cs ih =>
    rw [withoutTriviaList, List.filter_cons]
    cases h : c.isTrivia with
    | true => simpa using ih
    | false => simp [ih]

@[simp] theorem info_withoutTrivia (n : Concrete) : n.withoutTrivia.info = n.info := by
  obtain ⟨i, cs⟩ := n
  rw [withoutTrivia]
  rfl

@[simp] theorem children_withoutTrivia (n : Concrete) :
    n.withoutTrivia.children = withoutTriviaList n.children := by
  obtain ⟨i, cs⟩ := n
  rw [withoutTrivia]
  rfl

@[simp] theorem kind_withoutTrivia (n : Concrete) : n.withoutTrivia.kind = n.kind := by
  simp [kind]

@[simp] theorem start_withoutTrivia (n : Concrete) : n.withoutTrivia.start = n.start := by
  simp [start]

@[simp] theorem stop_withoutTrivia (n : Concrete) : n.withoutTrivia.stop = n.stop := by
  simp [stop]

@[simp] theorem isTrivia_withoutTrivia (n : Concrete) :
    n.withoutTrivia.isTrivia = n.isTrivia := by
  simp [isTrivia]

/-- Trivia are of a kind of their own. -/
theorem kind_ne_of_isTrivia {n : Concrete} (h : n.isTrivia = true) {k : String}
    (hk : k ≠ "comment" ∧ k ≠ "line_continuation") : n.kind ≠ k := by
  rintro rfl
  simp [isTrivia, hk] at h

/-- A search among the nodes that are left finds what a search that passes trivia over finds. -/
theorem filter_withoutTriviaList {p : Concrete → Bool} {cs : List Concrete}
    (hp : ∀ c ∈ cs, p c.withoutTrivia = p c) (htrivia : ∀ c ∈ cs, c.isTrivia = true → p c = false) :
    (withoutTriviaList cs).filter p = (cs.filter p).map withoutTrivia := by
  induction cs with
  | nil => rfl
  | cons c cs ih =>
    obtain ⟨hpc, hp⟩ := List.forall_mem_cons.mp hp
    obtain ⟨hc, htrivia⟩ := List.forall_mem_cons.mp htrivia
    have ihcs := ih hp htrivia
    rw [withoutTriviaList]
    cases h : c.isTrivia with
    | true => simp [hc h, ihcs]
    | false => cases hpass : p c <;> simp [hpc, hpass, ihcs]

/-! ### What the parser promises about trivia -/

/-- A node that is trivia is a leaf without a field and no problem; and trivia do not come first
where the first child or the first named child of a node is looked at. -/
structure PlainNode (n : Concrete) : Prop where
  leaf : n.isTrivia = true → n.children = []
  sound : n.isTrivia = true → n.info.missing = false ∧ n.info.error = false
  field : n.isTrivia = true → n.info.field = none
  first : n.kind = "function_definition" → ∀ c ∈ n.children.head?, c.isTrivia = false
  firstNamed : n.kind = "typed_parameter" → ∀ c ∈ n.namedChildren.head?, c.isTrivia = false

/-- All trivia of the tree are as the parser puts them there. -/
def PlainTrivia (t : Concrete) : Prop := ∀ n ∈ t.preorder, PlainNode n

theorem PlainTrivia.self {t : Concrete} (h : PlainTrivia t) : PlainNode t :=
  h t (Syntax.self_mem_preorder t)

theorem PlainTrivia.child {t c : Concrete} (h : PlainTrivia t) (hc : c ∈ t.children) :
    PlainTrivia c :=
  fun n hn => h n (Syntax.mem_preorder.mpr (.inr ⟨c, hc, hn⟩))

theorem PlainTrivia.cursor {t : Concrete} (h : PlainTrivia t) {c : Cursor} (hc : c ∈ cursors t) :
    PlainTrivia c.focus := by
  intro n hn
  exact h n (Syntax.mem_preorder_trans
    (Syntax.focus_mem_preorder (c := Cursor.ofRoot t) hc) hn)

/-! ### Children of a node without trivia -/

theorem namedChildren_withoutTrivia (n : Concrete) :
    n.withoutTrivia.namedChildren = n.parts.map withoutTrivia := by
  rw [namedChildren, children_withoutTrivia, withoutTriviaList_eq, List.filter_map, parts,
    namedChildren, List.filter_filter, List.filter_filter]
  simp [Bool.and_comm]

@[simp] theorem parts_withoutTrivia (n : Concrete) :
    n.withoutTrivia.parts = n.parts.map withoutTrivia := by
  rw [parts, namedChildren_withoutTrivia, List.filter_map, parts, List.filter_filter]
  simp

theorem filter_namedChildren_withoutTrivia {p : String → Bool} (hcomment : p "comment" = false)
    (hcontinuation : p "line_continuation" = false) (n : Concrete) :
    (n.withoutTrivia.namedChildren.filter fun c => p c.kind) =
      (n.namedChildren.filter fun c => p c.kind).map withoutTrivia := by
  have hplain (c : Concrete) : (p c.kind && !c.isTrivia) = p c.kind := by
    by_cases h : c.kind = "comment" ∨ c.kind = "line_continuation"
    · rcases h with h | h
      · simp [h, hcomment]
      · simp [h, hcontinuation]
    · simp [isTrivia, not_or.mp h]
  rw [namedChildren_withoutTrivia, List.filter_map, parts, List.filter_filter]
  simp [hplain]

/-- Trivia fill no field. -/
theorem childrenByField_withoutTrivia {n : Concrete} (h : PlainTrivia n) (field : String) :
    n.withoutTrivia.childrenByField field = (n.childrenByField field).map withoutTrivia := by
  rw [childrenByField, children_withoutTrivia, filter_withoutTriviaList]
  · rfl
  · simp
  · intro c hc htrivia
    simp [(h.child hc).self.field htrivia]

theorem childByField?_withoutTrivia {n : Concrete} (h : PlainTrivia n) (field : String) :
    n.withoutTrivia.childByField? field = (n.childByField? field).map withoutTrivia := by
  have hlist := childrenByField_withoutTrivia h field
  simp only [childrenByField] at hlist
  rw [childByField?, childByField?, ← List.head?_filter, ← List.head?_filter, hlist,
    List.head?_map]

namespace Cursor

/-! ### Cursors in the tree without trivia -/

/-- The crumb at the same node in the tree without trivia. -/
def crumbWithoutTrivia (k : Crumb) : Crumb :=
  ⟨k.parent, withoutTriviaList k.left, withoutTriviaList k.right⟩

/-- The cursor at the same node in the tree without trivia. -/
def withoutTrivia (c : Cursor) : Cursor :=
  ⟨c.focus.withoutTrivia, c.path.map crumbWithoutTrivia⟩

end Cursor

open Cursor (crumbWithoutTrivia)

theorem cursorsFrom_withoutTrivia {t : Concrete} (h : PlainTrivia t) (ht : t.isTrivia = false)
    (path : List Crumb) :
    cursorsFrom (path.map crumbWithoutTrivia) t.withoutTrivia =
      ((cursorsFrom path t).filter (!·.focus.isTrivia)).map Cursor.withoutTrivia := by
  induction t using inductionOn generalizing path with
  | node i cs ih =>
    have hcs : ∀ c ∈ cs, PlainTrivia c := fun c hc => h.child hc
    have hlist (left : List Concrete) :
        cursorsIn (path.map crumbWithoutTrivia) i (withoutTriviaList left) (withoutTriviaList cs) =
          ((cursorsIn path i left cs).filter (!·.focus.isTrivia)).map Cursor.withoutTrivia := by
      clear h ht
      induction cs generalizing left with
      | nil => rfl
      | cons c cs ihcs =>
        obtain ⟨hc, hcs⟩ := List.forall_mem_cons.mp hcs
        have hrest := ihcs (fun d hd => ih d (List.mem_cons_of_mem c hd)) hcs (c :: left)
        rw [cursorsIn, List.filter_append, List.map_append, ← hrest]
        cases htrivia : c.isTrivia with
        | true =>
          -- a leaf, which is left out, and so it is among the siblings to the left
          obtain ⟨j, ds⟩ := c
          obtain rfl : ds = [] := hc.self.leaf htrivia
          simp [withoutTriviaList, htrivia, cursorsFrom, cursorsIn]
        | false =>
          have hsub := ih c List.mem_cons_self hc htrivia (⟨i, left, cs⟩ :: path)
          rw [← hsub]
          simp [withoutTriviaList, htrivia, cursorsIn, crumbWithoutTrivia]
    have hnil := hlist []
    rw [withoutTriviaList] at hnil
    rw [withoutTrivia, cursorsFrom, hnil, cursorsFrom, List.filter_cons_of_pos (by simp [ht]),
      List.map_cons]
    rfl

/-- The nodes that are left are those that are no trivia, in the same order. -/
theorem cursors_withoutTrivia {t : Concrete} (h : PlainTrivia t) (ht : t.isTrivia = false) :
    cursors t.withoutTrivia =
      ((cursors t).filter (!·.focus.isTrivia)).map Cursor.withoutTrivia :=
  cursorsFrom_withoutTrivia h ht []

end Concrete

namespace Syntax

open Concrete (Cursor PlainTrivia cursors withoutTriviaList)

/-! ### The checks -/

theorem nodeProblem?_withoutTrivia (n : Concrete) :
    nodeProblem? n.withoutTrivia = nodeProblem? n := by
  simp [nodeProblem?]

theorem checkAlignment_withoutTrivia (text : List Char) (column : Nat) (ss : List Concrete) :
    checkAlignment text column (ss.map Concrete.withoutTrivia) =
      checkAlignment text column ss := by
  simp [checkAlignment, beginsLine, List.find?_map, Function.comp_def]

theorem parent?_withoutTrivia {c : Cursor} (h : c.focus.isTrivia = false) :
    c.withoutTrivia.parent? = c.parent?.map Cursor.withoutTrivia := by
  obtain ⟨f, path⟩ := c
  cases path with
  | nil => rfl
  | cons k path =>
    have hsiblings : withoutTriviaList (k.left.reverse ++ f :: k.right) =
        (withoutTriviaList k.left).reverse ++ f.withoutTrivia :: withoutTriviaList k.right := by
      have hf : f.isTrivia = false := h
      simp [Concrete.withoutTriviaList_eq, hf]
    simp [Cursor.parent?, Cursor.withoutTrivia, Cursor.crumbWithoutTrivia, hsiblings,
      Concrete.withoutTrivia]

theorem headerEndRow_withoutTrivia (b up : Cursor) :
    headerEndRow b.withoutTrivia up.withoutTrivia.focus = headerEndRow b up.focus := by
  have hfind : b.withoutTrivia.previousSiblings.find? (!·.isTrivia) =
      (b.previousSiblings.find? (!·.isTrivia)).map Concrete.withoutTrivia := by
    obtain ⟨f, path⟩ := b
    cases path with
    | nil => rfl
    | cons k path =>
      simp [Cursor.previousSiblings, Cursor.withoutTrivia, Cursor.crumbWithoutTrivia,
        Concrete.withoutTriviaList_eq, List.find?_map, List.find?_filter]
  unfold headerEndRow
  rw [hfind]
  cases b.previousSiblings.find? (!·.isTrivia) with
  | none => exact congrArg Parsing.Point.row (Concrete.start_withoutTrivia up.focus)
  | some n => exact congrArg Parsing.Point.row (Concrete.stop_withoutTrivia n)

theorem checkBlock_withoutTrivia (text : List Char) {b : Cursor} (h : b.focus.isTrivia = false) :
    checkBlock text b.withoutTrivia = checkBlock text b := by
  unfold checkBlock
  rw [parent?_withoutTrivia h]
  cases hup : b.parent? with
  | none => rfl
  | some up =>
    have hparts : b.withoutTrivia.focus.parts = b.focus.parts.map Concrete.withoutTrivia :=
      Concrete.parts_withoutTrivia b.focus
    simp only [Option.map_some, hparts, headerEndRow_withoutTrivia]
    cases hlist : b.focus.parts with
    | nil => simp [expectedBlock, Cursor.withoutTrivia]
    | cons first rest =>
      have halign := checkAlignment_withoutTrivia text first.start.column (first :: rest)
      rw [List.map_cons] at halign
      simp [expectedBlock, Cursor.withoutTrivia, halign]

theorem checkHasBody_withoutTrivia {n : Concrete} (h : PlainTrivia n) :
    checkHasBody n.withoutTrivia = checkHasBody n := by
  simp [checkHasBody, Concrete.childByField?_withoutTrivia h, expectedBlock]

theorem parameterRole_of_isTrivia {n : Concrete} (h : n.isTrivia = true) :
    parameterRole n = .neutral := by
  rw [Concrete.isTrivia, Bool.or_eq_true, beq_iff_eq, beq_iff_eq] at h
  rcases h with hkind | hkind
  · simp [parameterRole, hkind]
  · simp [parameterRole, hkind]

theorem isSplat_withoutTrivia {n : Concrete} (h : PlainTrivia n)
    (hkind : n.kind = "typed_parameter") : isSplat n.withoutTrivia = isSplat n := by
  have hfirst := h.self.firstNamed hkind
  unfold isSplat
  rw [Concrete.namedChildren_withoutTrivia, Concrete.parts]
  cases hnamed : n.namedChildren with
  | nil => rfl
  | cons c cs =>
    have hc : c.isTrivia = false := hfirst c (by simp [hnamed])
    simp [hc]

theorem parameterRole_withoutTrivia {n : Concrete} (h : PlainTrivia n) :
    parameterRole n.withoutTrivia = parameterRole n := by
  unfold parameterRole
  rw [Concrete.kind_withoutTrivia]
  split
  case h_8 hkind => rw [isSplat_withoutTrivia h hkind]
  all_goals rfl

theorem checkParameterOrder_withoutTrivia {ps : List Concrete} (h : ∀ p ∈ ps, PlainTrivia p)
    (seenDefault : Bool) :
    checkParameterOrder seenDefault (withoutTriviaList ps) =
      checkParameterOrder seenDefault ps := by
  induction ps generalizing seenDefault with
  | nil => rfl
  | cons p ps ih =>
    obtain ⟨hp, hps⟩ := List.forall_mem_cons.mp h
    have ihps := ih hps
    rw [withoutTriviaList]
    cases htrivia : p.isTrivia with
    | true => simp [checkParameterOrder, parameterRole_of_isTrivia htrivia, ihps]
    | false => simp [checkParameterOrder, parameterRole_withoutTrivia hp, ihps]

theorem checkBareAssignment_withoutTrivia (n : Concrete) :
    checkBareAssignment n.withoutTrivia = checkBareAssignment n := by
  simp [checkBareAssignment, List.find?_map, Function.comp_def]

theorem checkComprehensionSource_withoutTrivia {c : Cursor} (h : PlainTrivia c.focus) :
    checkComprehensionSource c.withoutTrivia = checkComprehensionSource c := by
  have hsources : (c.withoutTrivia.focus.childrenByField "right").filter (·.info.named) =
      ((c.focus.childrenByField "right").filter (·.info.named)).map Concrete.withoutTrivia := by
    simp [Cursor.withoutTrivia, Concrete.childrenByField_withoutTrivia h, List.filter_map,
      Function.comp_def]
  unfold checkComprehensionSource
  rw [hsources]
  generalize (c.focus.childrenByField "right").filter (·.info.named) = sources
  match sources with
  | [] => rfl
  | [_] => rfl
  | _ :: second :: _ =>
    obtain ⟨f, path⟩ := c
    match path with
    | [] => simp [Cursor.withoutTrivia]
    | [_] => simp [Cursor.withoutTrivia]
    | k :: l :: path => simp [Cursor.withoutTrivia, Cursor.crumbWithoutTrivia]

theorem invalidTarget?_eq (n : Concrete) :
    invalidTarget? n =
      if isDeletable n then none
      else if groupsTargets n then invalidTargetIn? n.children else some n := by
  obtain ⟨i, cs⟩ := n
  rw [invalidTarget?]
  rfl

theorem invalidTargetIn?_withoutTrivia {cs : List Concrete}
    (h : ∀ c ∈ cs, invalidTarget? c.withoutTrivia = (invalidTarget? c).map Concrete.withoutTrivia) :
    invalidTargetIn? (withoutTriviaList cs) =
      (invalidTargetIn? cs).map Concrete.withoutTrivia := by
  induction cs with
  | nil => rfl
  | cons c cs ih =>
    obtain ⟨hc, hcs⟩ := List.forall_mem_cons.mp h
    have ihcs := ih hcs
    rw [withoutTriviaList]
    cases htrivia : c.isTrivia with
    | true => simp [invalidTargetIn?, htrivia, ihcs]
    | false =>
      cases hnamed : c.info.named with
      | false => simp [invalidTargetIn?, hnamed, ihcs]
      | true =>
        cases htarget : invalidTarget? c with
        | none => simp [invalidTargetIn?, htrivia, hnamed, hc, htarget, ihcs]
        | some n => simp [invalidTargetIn?, htrivia, hnamed, hc, htarget]

theorem invalidTarget?_withoutTrivia (n : Concrete) :
    invalidTarget? n.withoutTrivia = (invalidTarget? n).map Concrete.withoutTrivia := by
  induction n using Concrete.inductionOn with
  | node i cs ih =>
    have hchildren := invalidTargetIn?_withoutTrivia ih
    have hdelete : isDeletable (Concrete.node i cs).withoutTrivia = isDeletable (.node i cs) := by
      simp [isDeletable]
    have hgroup : groupsTargets (Concrete.node i cs).withoutTrivia =
        groupsTargets (.node i cs) := by
      simp [groupsTargets]
    rw [invalidTarget?_eq, invalidTarget?_eq, hdelete, hgroup, Concrete.children_withoutTrivia]
    cases isDeletable (.node i cs) with
    | true => rfl
    | false =>
      cases groupsTargets (.node i cs) with
      | true => exact hchildren
      | false => rfl

theorem checkDeleteTargets_withoutTrivia (n : Concrete) :
    checkDeleteTargets n.withoutTrivia = checkDeleteTargets n := by
  have hchildren := invalidTargetIn?_withoutTrivia fun c (_ : c ∈ n.children) =>
    invalidTarget?_withoutTrivia c
  simp [checkDeleteTargets, hchildren, Function.comp_def]

/-- A node passes its check, or fails it with the same report, with and without trivia around it. -/
theorem check_withoutTrivia (text : List Char) {c : Cursor} (h : PlainTrivia c.focus)
    (htrivia : c.focus.isTrivia = false) : check text c.withoutTrivia = check text c := by
  have hkind : c.withoutTrivia.focus.kind = c.focus.kind := Concrete.kind_withoutTrivia c.focus
  unfold check
  simp only [hkind]
  split
  · exact (congrArg _ (Concrete.parts_withoutTrivia _)).trans (checkAlignment_withoutTrivia ..)
  · exact checkBlock_withoutTrivia text htrivia
  · exact checkHasBody_withoutTrivia h
  · exact checkHasBody_withoutTrivia h
  · exact (congrArg _ (Concrete.children_withoutTrivia _)).trans
      (checkParameterOrder_withoutTrivia (fun p hp => h.child hp) false)
  · exact (congrArg _ (Concrete.children_withoutTrivia _)).trans
      (checkParameterOrder_withoutTrivia (fun p hp => h.child hp) false)
  · exact checkBareAssignment_withoutTrivia _
  · exact checkComprehensionSource_withoutTrivia h
  · exact checkDeleteTargets_withoutTrivia _
  · rfl

/-! ### The two scans -/

/-- A scan that finds nothing at trivia has the same result on the tree without them. -/
theorem findSome?_cursors_withoutTrivia {α : Type} {f : Cursor → Option α} {t : Concrete}
    (h : PlainTrivia t) (ht : t.isTrivia = false)
    (hsame : ∀ c ∈ cursors t, c.focus.isTrivia = false → f c.withoutTrivia = f c)
    (htrivia : ∀ c ∈ cursors t, c.focus.isTrivia = true → f c = none) :
    (cursors t.withoutTrivia).findSome? f = (cursors t).findSome? f := by
  rw [Concrete.cursors_withoutTrivia h ht, List.findSome?_map]
  generalize cursors t = cs at hsame htrivia
  induction cs with
  | nil => rfl
  | cons c cs ih =>
    obtain ⟨hsamec, hsame⟩ := List.forall_mem_cons.mp hsame
    obtain ⟨htriviac, htrivia⟩ := List.forall_mem_cons.mp htrivia
    have ihcs := ih hsame htrivia
    rw [List.filter_cons, List.findSome?_cons]
    cases hc : c.focus.isTrivia with
    | true => simpa [htriviac hc] using ihcs
    | false =>
      simp only [Bool.not_false, if_true, List.findSome?_cons, Function.comp_apply, hsamec hc]
      cases f c with
      | none => exact ihcs
      | some a => rfl

theorem firstSyntaxProblem?_withoutTrivia {t : Concrete} (h : PlainTrivia t)
    (ht : t.isTrivia = false) : firstSyntaxProblem? t.withoutTrivia = firstSyntaxProblem? t := by
  rw [firstSyntaxProblem?, firstSyntaxProblem?, Cursor.scan_ofRoot, Cursor.scan_ofRoot]
  apply findSome?_cursors_withoutTrivia h ht
  · intro c _ _
    simp [Cursor.withoutTrivia, nodeProblem?_withoutTrivia]
  · intro c hc htrivia
    have hplain := h c.focus (focus_mem_preorder (c := Cursor.ofRoot t) hc)
    obtain ⟨hmissing, herror⟩ := hplain.sound htrivia
    have hnone : nodeProblem? c.focus = none := by
      rw [nodeProblem?_eq_none, IsProblem, hmissing, herror]
      simp [Concrete.kind_ne_of_isTrivia htrivia]
    rw [hnone, Option.map_none]

theorem firstStructuralProblem?_withoutTrivia (text : List Char) {t : Concrete} (h : PlainTrivia t)
    (ht : t.isTrivia = false) :
    firstStructuralProblem? text t.withoutTrivia = firstStructuralProblem? text t := by
  rw [firstStructuralProblem?_eq, firstStructuralProblem?_eq]
  apply findSome?_cursors_withoutTrivia h ht
  · intro c hc htrivia
    exact check_withoutTrivia text (h.cursor hc) htrivia
  · intro c _ htrivia
    cases hcheck : check text c with
    | none => rfl
    | some f => simp [not_trivia_of_check hcheck] at htrivia

/-! ### Lowering -/

theorem textOf_withoutTrivia (text : List Char) (n : Concrete) :
    textOf text n.withoutTrivia = textOf text n := by
  simp [textOf]

theorem fieldText_withoutTrivia (text : List Char) {n : Concrete} (h : PlainTrivia n)
    (field : String) : fieldText text n.withoutTrivia field = fieldText text n field := by
  unfold fieldText
  rw [Concrete.childByField?_withoutTrivia h]
  cases n.childByField? field with
  | none => rfl
  | some c => simp [textOf_withoutTrivia]

theorem importedName?_withoutTrivia (text : List Char) {n : Concrete} (h : PlainTrivia n) :
    importedName? text n.withoutTrivia = importedName? text n := by
  simp [importedName?, Concrete.childByField?_withoutTrivia h, textOf_withoutTrivia,
    Function.comp_def]

theorem importedNames_withoutTrivia (text : List Char) {n : Concrete} (h : PlainTrivia n) :
    importedNames text n.withoutTrivia = importedNames text n := by
  have hnames : (n.withoutTrivia.childrenByField "name").filterMap (importedName? text) =
      (n.childrenByField "name").filterMap (importedName? text) := by
    rw [Concrete.childrenByField_withoutTrivia h, List.filterMap_map]
    apply List.filterMap_congr
    intro c hc
    exact importedName?_withoutTrivia text (h.child (List.mem_of_mem_filter hc))
  have hwildcard : (n.withoutTrivia.namedChildren.any fun c => c.kind = "wildcard_import") =
      n.namedChildren.any fun c => c.kind = "wildcard_import" := by
    rw [← List.isSome_find?, ← List.isSome_find?, ← List.head?_filter, ← List.head?_filter,
      Concrete.filter_namedChildren_withoutTrivia
        (p := fun k => k = "wildcard_import") (by decide) (by decide), List.head?_map,
      Option.isSome_map]
  rw [importedNames, importedNames, hnames, hwildcard]

theorem joinedContent?_withoutTrivia (text : List Char) (ps : List Concrete) :
    joinedContent? text (ps.map Concrete.withoutTrivia) = joinedContent? text ps := by
  induction ps with
  | nil => rfl
  | cons p ps ih => rw [List.map_cons, joinedContent?, joinedContent?, ih, textOf_withoutTrivia]

theorem stringValue?_withoutTrivia (text : List Char) (n : Concrete) :
    stringValue? text n.withoutTrivia = stringValue? text n := by
  have hstrings := Concrete.filter_namedChildren_withoutTrivia
    (p := fun k => k = "string") (by decide) (by decide) n
  simp [stringValue?, textOf_withoutTrivia, hstrings, joinedContent?_withoutTrivia]

theorem leadingDocstring?_withoutTrivia (text : List Char) (body : Concrete) :
    leadingDocstring? text body.withoutTrivia = leadingDocstring? text body := by
  unfold leadingDocstring?
  rw [Concrete.parts_withoutTrivia]
  cases body.parts with
  | nil => rfl
  | cons first rest =>
    simp only [List.map_cons, Concrete.kind_withoutTrivia, Concrete.parts_withoutTrivia]
    match first.parts with
    | [] => rfl
    | [value] => simp [stringValue?_withoutTrivia]
    | _ :: _ :: _ => rfl

theorem kindOf_withoutTrivia (text : List Char) {n : Concrete} (h : PlainTrivia n) :
    kindOf text n.withoutTrivia = kindOf text n := by
  have hbody : (n.withoutTrivia.childByField? "body").bind (leadingDocstring? text) =
      (n.childByField? "body").bind (leadingDocstring? text) := by
    rw [Concrete.childByField?_withoutTrivia h, Option.bind_map]
    congr 1
    funext body
    exact leadingDocstring?_withoutTrivia text body
  have hhandlers : (n.withoutTrivia.namedChildren.filter isHandler).length =
      (n.namedChildren.filter isHandler).length := by
    have hfilter := Concrete.filter_namedChildren_withoutTrivia
      (p := fun k => k = "except_clause" || k = "except_group_clause") (by decide) (by decide) n
    exact (congrArg List.length hfilter).trans (List.length_map _)
  have hmodule : ((n.withoutTrivia.childByField? "module_name").map fun c =>
        String.ofList (textOf text c)) =
      (n.childByField? "module_name").map fun c => String.ofList (textOf text c) := by
    simp [Concrete.childByField?_withoutTrivia h, textOf_withoutTrivia, Function.comp_def]
  have hasync (hkind : n.kind = "function_definition") :
      (n.withoutTrivia.children.head?.any fun c => c.kind = "async") =
        n.children.head?.any fun c => c.kind = "async" := by
    have hfirst := h.self.first hkind
    rw [Concrete.children_withoutTrivia]
    cases hchildren : n.children with
    | nil => rfl
    | cons c cs =>
      have hc : c.isTrivia = false := hfirst c (by simp [hchildren])
      simp [withoutTriviaList, hc]
  unfold kindOf
  rw [Concrete.kind_withoutTrivia, fieldText_withoutTrivia text h, hbody, hhandlers, hmodule,
    importedNames_withoutTrivia text h, leadingDocstring?_withoutTrivia]
  split
  case h_2 hkind => rw [hasync hkind]
  all_goals rfl

theorem lowerParts_withoutTrivia (text : List Char) {cs : List Concrete}
    (h : ∀ c ∈ cs, lower text c.withoutTrivia = lower text c) :
    lowerParts text (withoutTriviaList cs) = lowerParts text cs := by
  induction cs with
  | nil => rfl
  | cons c cs ih =>
    obtain ⟨hc, hcs⟩ := List.forall_mem_cons.mp h
    have ihcs := ih hcs
    rw [withoutTriviaList]
    cases htrivia : c.isTrivia with
    | true => simp [lowerParts, htrivia, ihcs]
    | false => simp [lowerParts, htrivia, hc, ihcs]

theorem lowerInterpolations_withoutTrivia (text : List Char) {cs : List Concrete}
    (h : ∀ c ∈ cs, lower text c.withoutTrivia = lower text c ∧
      lowerInterpolations text (withoutTriviaList c.children) =
        lowerInterpolations text c.children) :
    lowerInterpolations text (withoutTriviaList cs) = lowerInterpolations text cs := by
  induction cs with
  | nil => rfl
  | cons c cs ih =>
    obtain ⟨⟨hc, hinside⟩, hcs⟩ := List.forall_mem_cons.mp h
    have ihcs := ih hcs
    rw [withoutTriviaList, lowerInterpolations_cons]
    cases htrivia : c.isTrivia with
    | true => simp [Concrete.kind_ne_of_isTrivia htrivia, ihcs]
    | false => simp [lowerInterpolations_cons, hc, hinside, ihcs]

/-- The syntax tree does not depend on trivia, and neither does what a string literal keeps. -/
theorem lower_withoutTrivia (text : List Char) {t : Concrete} (h : PlainTrivia t) :
    lower text t.withoutTrivia = lower text t ∧
      lowerInterpolations text (withoutTriviaList t.children) =
        lowerInterpolations text t.children := by
  induction t using Concrete.inductionOn with
  | node i cs ih =>
    have hcs : ∀ c ∈ cs, lower text c.withoutTrivia = lower text c ∧
        lowerInterpolations text (withoutTriviaList c.children) =
          lowerInterpolations text c.children := fun c hc => ih c hc (h.child hc)
    have hparts := lowerParts_withoutTrivia text fun c hc => (hcs c hc).1
    have hinside := lowerInterpolations_withoutTrivia text hcs
    refine ⟨?_, hinside⟩
    have hkind := kindOf_withoutTrivia text h
    have hliteral : isLiteral (Concrete.node i cs).withoutTrivia = isLiteral (.node i cs) := by
      simp [isLiteral]
    rw [Concrete.withoutTrivia] at hkind hliteral ⊢
    rw [lower, lower, hkind, hliteral, hparts, hinside]

/-! ### The verdict -/

/-- What stands in the tree without trivia: the other nodes, in the same order, with the same kinds,
places and fields. -/
theorem map_info_withoutTrivia {t : Concrete} (h : PlainTrivia t) (ht : t.isTrivia = false) :
    t.withoutTrivia.preorder.map Concrete.info =
      (t.preorder.filter (!·.isTrivia)).map Concrete.info := by
  rw [← Concrete.map_focus_cursors, ← Concrete.map_focus_cursors,
    Concrete.cursors_withoutTrivia h ht, List.filter_map, List.map_map, List.map_map, List.map_map]
  apply List.map_congr_left
  intro c _
  exact Concrete.info_withoutTrivia c.focus

/-- Comments and line continuations do not change the verdict. If they are taken out of a concrete
syntax tree, the nodes that are left are the others, in the same order and with the same places and
fields, and the same problem is found by the same scan, or the same syntax tree comes out. -/
theorem judge_withoutTrivia (text : List Char) (t : Concrete) (h : PlainTrivia t) :
    (t.isTrivia = false → t.withoutTrivia.preorder.map Concrete.info =
      (t.preorder.filter (!·.isTrivia)).map Concrete.info) ∧
    firstSyntaxProblem? t.withoutTrivia = firstSyntaxProblem? t ∧
    firstStructuralProblem? text t.withoutTrivia = firstStructuralProblem? text t ∧
    lower text t.withoutTrivia = lower text t ∧
    judge text t.withoutTrivia = judge text t := by
  refine ⟨map_info_withoutTrivia h, ?_⟩
  cases ht : t.isTrivia with
  | true =>
    -- a tree that is nothing but a comment has nothing below its root
    have hself : t.withoutTrivia = t := by
      obtain ⟨i, cs⟩ := t
      obtain rfl : cs = [] := h.self.leaf ht
      rfl
    rw [hself]
    exact ⟨rfl, rfl, rfl, rfl⟩
  | false =>
    have hfirst := firstSyntaxProblem?_withoutTrivia h ht
    have hstructure := firstStructuralProblem?_withoutTrivia text h ht
    have hlower := (lower_withoutTrivia text h).1
    refine ⟨hfirst, hstructure, hlower, ?_⟩
    rw [judge, judge, hfirst, hstructure, hlower]

def commentedText : List Char :=
  "def f(a, # one\n      *b): # two\n    # three\n    \"text\"\n".toList

/-- The tree of `commentedText`: comments in a list of parameters, after a header and before the
statements of a block. -/
def commentedTree : Concrete :=
  soundNode "module" true none ⟨0, 0, 0⟩ ⟨4, 0, 55⟩ [
    soundNode "function_definition" true none ⟨0, 0, 0⟩ ⟨3, 10, 54⟩ [
      soundNode "def" false none ⟨0, 0, 0⟩ ⟨0, 3, 3⟩ [],
      soundNode "identifier" true (some "name") ⟨0, 4, 4⟩ ⟨0, 5, 5⟩ [],
      soundNode "parameters" true (some "parameters") ⟨0, 5, 5⟩ ⟨1, 9, 24⟩ [
        soundNode "(" false none ⟨0, 5, 5⟩ ⟨0, 6, 6⟩ [],
        soundNode "identifier" true none ⟨0, 6, 6⟩ ⟨0, 7, 7⟩ [],
        soundNode "," false none ⟨0, 7, 7⟩ ⟨0, 8, 8⟩ [],
        soundNode "comment" true none ⟨0, 9, 9⟩ ⟨0, 14, 14⟩ [],
        soundNode "list_splat_pattern" true none ⟨1, 6, 21⟩ ⟨1, 8, 23⟩ [
          soundNode "*" false none ⟨1, 6, 21⟩ ⟨1, 7, 22⟩ [],
          soundNode "identifier" true none ⟨1, 7, 22⟩ ⟨1, 8, 23⟩ []],
        soundNode ")" false none ⟨1, 8, 23⟩ ⟨1, 9, 24⟩ []],
      soundNode ":" false none ⟨1, 9, 24⟩ ⟨1, 10, 25⟩ [],
      soundNode "comment" true none ⟨1, 11, 26⟩ ⟨1, 16, 31⟩ [],
      soundNode "comment" true none ⟨2, 4, 36⟩ ⟨2, 11, 43⟩ [],
      soundNode "block" true (some "body") ⟨3, 4, 48⟩ ⟨3, 10, 54⟩ [
        soundNode "expression_statement" true none ⟨3, 4, 48⟩ ⟨3, 10, 54⟩ [
          soundNode "string" true none ⟨3, 4, 48⟩ ⟨3, 10, 54⟩ [
            soundNode "string_start" true none ⟨3, 4, 48⟩ ⟨3, 5, 49⟩ [],
            soundNode "string_content" true none ⟨3, 5, 49⟩ ⟨3, 9, 53⟩ [],
            soundNode "string_end" true none ⟨3, 9, 53⟩ ⟨3, 10, 54⟩ []]]]]]

/-- The text is accepted, and it is the same function with its docstring if the three comments are
taken out. -/
theorem commentedTree_judged :
    PlainTrivia commentedTree ∧ (commentedTree.preorder.filter (·.isTrivia)).length = 3 ∧
    judge commentedText commentedTree.withoutTrivia =
      .ok (lower commentedText commentedTree) := by
  have hplain : PlainTrivia commentedTree := fun n hn =>
    { leaf := by revert n; decide +kernel
      sound := by revert n; decide +kernel
      field := by revert n; decide +kernel
      first := by revert n; decide +kernel
      firstNamed := by revert n; decide +kernel }
  have haccepted : judge commentedText commentedTree = .ok (lower commentedText commentedTree) :=
    judge_of_all (by decide +kernel) (by decide +kernel)
  obtain ⟨-, -, -, -, hjudge⟩ := judge_withoutTrivia commentedText commentedTree hplain
  exact ⟨hplain, by decide +kernel, hjudge.trans haccepted⟩

end Syntax
end SourceAudit
