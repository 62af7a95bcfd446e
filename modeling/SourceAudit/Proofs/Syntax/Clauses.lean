import SourceAudit.Proofs.Syntax.Layout

/-!
Columns of clauses. The checks compare the columns of statements with one another and of blocks with
their headers, but never the column of a clause with that of the statement it belongs to. If nodes
that are no statements are moved along their rows, an accepted source stays accepted exactly as long
as each header stays to the left of its own block (`accepted_iff_left_of_block`); so a clause may
stand out of line (`stray_accepted`).
-/

namespace SourceAudit.Syntax

open SourceAudit.Parsing (Point)
open SourceAudit.Concrete (Crumb Cursor Info cursors cursorsFrom cursorsIn)

/-! ### Clauses -/

def compoundKinds : List String :=
  ["if_statement", "for_statement", "while_statement", "try_statement"]

def clauseKinds : List String :=
  ["elif_clause", "else_clause", "except_clause", "except_group_clause", "finally_clause"]

/-- Whether a node goes on with its parent on a line of its own: a clause of a compound statement,
or the definition below its decorators. -/
def continues (parent kind : String) : Bool :=
  (compoundKinds.contains parent && clauseKinds.contains kind) ||
    (parent == "decorated_definition" &&
      (kind == "function_definition" || kind == "class_definition"))

/-- Every clause that begins a line is in line with the statement it belongs to. -/
def ClausesAligned (text : List Char) (t : Concrete) : Prop :=
  ∀ clause ∈ cursors t, ∀ statement, clause.parent? = some statement →
    continues statement.focus.kind clause.focus.kind = true →
      beginsLine text clause.focus = true →
        clause.focus.start.column = statement.focus.start.column

/-! ### Moving nodes along their rows -/

/-- Whether the children of a node of this kind are statements. -/
def holdsStatements (kind : String) : Bool := kind == "module" || kind == "block"

/-- New places for the nodes of a tree, by the kind of the parent and the node: the rows stay, and
so do the columns of statements. -/
structure Move where
  start : String → Info → Point
  stop : String → Info → Point
  start_row : ∀ parent i, (start parent i).row = i.start.row
  stop_row : ∀ parent i, (stop parent i).row = i.stop.row
  statement_column : ∀ parent i, holdsStatements parent = true →
    (start parent i).column = i.start.column

namespace Move

variable (m : Move)

mutual

/-- The tree after the move; `parent` is the kind of the parent of its root. -/
def tree (parent : String) : Concrete → Concrete
  | .node i cs => .node { i with start := m.start parent i, stop := m.stop parent i }
      (trees i.kind cs)

def trees (parent : String) : List Concrete → List Concrete
  | [] => []
  | c :: cs => tree parent c :: trees parent cs

end

/-- The kind of the parent of a node, empty at the root. -/
def parentKind : List Crumb → String
  | [] => ""
  | k :: _ => k.parent.kind

def path : List Crumb → List Crumb
  | [] => []
  | k :: crumbs =>
    { parent :=
        { k.parent with
          start := m.start (parentKind crumbs) k.parent
          stop := m.stop (parentKind crumbs) k.parent }
      left := k.left.map (m.tree k.parent.kind)
      right := k.right.map (m.tree k.parent.kind) } :: path crumbs

/-- The cursor at the same node after the move. -/
def cursor (c : Cursor) : Cursor := ⟨m.tree (parentKind c.path) c.focus, m.path c.path⟩

theorem trees_eq_map (parent : String) (cs : List Concrete) :
    m.trees parent cs = cs.map (m.tree parent) := by
  induction cs with
  | nil => rfl
  | cons c cs ih => rw [trees, ih, List.map_cons]

theorem tree_node (parent : String) (i : Info) (cs : List Concrete) :
    m.tree parent (.node i cs) =
      .node { i with start := m.start parent i, stop := m.stop parent i }
        (cs.map (m.tree i.kind)) := by
  rw [tree, trees_eq_map]

@[simp] theorem info_tree (parent : String) (n : Concrete) :
    (m.tree parent n).info =
      { n.info with start := m.start parent n.info, stop := m.stop parent n.info } := by
  obtain ⟨i, cs⟩ := n
  rw [tree_node]
  rfl

@[simp] theorem children_tree (parent : String) (n : Concrete) :
    (m.tree parent n).children = n.children.map (m.tree n.kind) := by
  obtain ⟨i, cs⟩ := n
  rw [tree_node]
  rfl

@[simp] theorem kind_tree (parent : String) (n : Concrete) : (m.tree parent n).kind = n.kind := by
  simp [Concrete.kind]

@[simp] theorem isTrivia_tree (parent : String) (n : Concrete) :
    (m.tree parent n).isTrivia = n.isTrivia := by
  simp [Concrete.isTrivia]

theorem namedChildren_tree (parent : String) (n : Concrete) :
    (m.tree parent n).namedChildren = n.namedChildren.map (m.tree n.kind) := by
  simp [Concrete.namedChildren, List.filter_map, Function.comp_def]

theorem parts_tree (parent : String) (n : Concrete) :
    (m.tree parent n).parts = n.parts.map (m.tree n.kind) := by
  simp [Concrete.parts, namedChildren_tree, List.filter_map, Function.comp_def]

theorem startRow_tree (parent : String) (n : Concrete) :
    (m.tree parent n).start.row = n.start.row := by
  simp [Concrete.start, m.start_row]

theorem startColumn_tree {parent : String} (h : holdsStatements parent = true) (n : Concrete) :
    (m.tree parent n).start.column = n.start.column := by
  simp [Concrete.start, m.statement_column parent n.info h]

theorem cursorsFrom_tree (t : Concrete) (crumbs : List Crumb) :
    cursorsFrom (m.path crumbs) (m.tree (parentKind crumbs) t) =
      (cursorsFrom crumbs t).map m.cursor := by
  induction t using Concrete.inductionOn generalizing crumbs with
  | node i cs ih =>
    -- the children passed so far are part of the way to the next one, so they are moved as well
    have hlist (left : List Concrete) :
        cursorsIn (m.path crumbs)
            { i with
              start := m.start (parentKind crumbs) i
              stop := m.stop (parentKind crumbs) i }
            (left.map (m.tree i.kind)) (cs.map (m.tree i.kind)) =
          (cursorsIn crumbs i left cs).map m.cursor := by
      induction cs generalizing left with
      | nil => rfl
      | cons c cs ihcs =>
        rw [List.map_cons, cursorsIn, cursorsIn, List.map_append, ← List.map_cons,
          ihcs (fun d hd => ih d (by simp [hd])) (c :: left), ← ih c (by simp)]
        rfl
    rw [tree_node, cursorsFrom, cursorsFrom, List.map_cons, ← hlist [], List.map_nil, cursor,
      tree_node]

theorem cursors_tree (t : Concrete) : cursors (m.tree "" t) = (cursors t).map m.cursor :=
  m.cursorsFrom_tree t []

theorem parent?_cursor (c : Cursor) : (m.cursor c).parent? = c.parent?.map m.cursor := by
  obtain ⟨f, crumbs⟩ := c
  cases crumbs with
  | nil => rfl
  | cons k crumbs => simp [cursor, path, Cursor.parent?, parentKind, tree_node]

theorem previousSiblings_cursor (c : Cursor) :
    (m.cursor c).previousSiblings = c.previousSiblings.map (m.tree (parentKind c.path)) := by
  obtain ⟨f, crumbs⟩ := c
  cases crumbs with
  | nil => rfl
  | cons k crumbs => rfl

theorem kind_cursor (c : Cursor) : (m.cursor c).focus.kind = c.focus.kind := by simp [cursor]

end Move

/-! ### Checks that do not look at columns -/

theorem checkComprehensionSource_eq_none {c : Cursor} :
    checkComprehensionSource c = none ↔
      ((c.focus.childrenByField "right").filter (·.info.named)).length ≤ 1 := by
  unfold checkComprehensionSource
  split
  · rename_i hsources
    simp [hsources]
  · rename_i hfew
    simp only [true_iff]
    generalize (c.focus.childrenByField "right").filter (·.info.named) = sources at hfew
    match sources with
    | [] => simp
    | [_] => simp
    | a :: b :: rest => exact absurd rfl (hfew a b rest)

theorem invalidTargetIn?_eq_none {cs : List Concrete} :
    invalidTargetIn? cs = none ↔
      ∀ c ∈ cs, c.info.named = true → c.isTrivia = false → invalidTarget? c = none := by
  induction cs with
  | nil => simp [invalidTargetIn?]
  | cons c cs ih =>
    rw [invalidTargetIn?, List.forall_mem_cons, ← ih]
    by_cases hpart : c.info.named = true ∧ c.isTrivia = false
    · cases htarget : invalidTarget? c with
      | none => simp [hpart]
      | some n => simp [hpart]
    · have hskip : ¬ (c.info.named && !c.isTrivia) = true := by simpa using hpart
      rw [if_neg hskip]
      constructor
      · intro h
        exact ⟨fun hnamed htrivia => absurd ⟨hnamed, htrivia⟩ hpart, h⟩
      · rintro ⟨-, h⟩
        exact h

theorem invalidTarget?_eq_none {n : Concrete} :
    invalidTarget? n = none ↔
      isDeletable n = true ∨ groupsTargets n = true ∧ invalidTargetIn? n.children = none := by
  obtain ⟨i, cs⟩ := n
  rw [invalidTarget?]
  by_cases hdelete : isDeletable (.node i cs) = true
  · simp [hdelete]
  · by_cases hgroup : groupsTargets (.node i cs) = true
    · simp [hdelete, hgroup, Concrete.children]
    · simp [hdelete, hgroup]

/-- The kinds of the nodes that are checked. -/
def checkedKinds : List String :=
  ["module", "block", "function_definition", "class_definition", "parameters", "lambda_parameters",
    "expression_statement", "for_in_clause", "delete_statement"]

theorem check_of_not_checked {text : List Char} {c : Cursor} (h : c.focus.kind ∉ checkedKinds) :
    check text c = none := by
  simp only [checkedKinds, List.mem_cons, List.not_mem_nil, or_false, not_or] at h
  simp [check, h]

namespace Move

variable (m : Move)

theorem checkHasBody_tree (parent : String) (n : Concrete) :
    checkHasBody (m.tree parent n) = none ↔ checkHasBody n = none := by
  simp [checkHasBody_eq_none]

theorem parameterRole_tree (parent : String) (n : Concrete) :
    parameterRole (m.tree parent n) = parameterRole n := by
  have hsplat : isSplat (m.tree parent n) = isSplat n := by
    unfold isSplat
    rw [namedChildren_tree]
    cases n.namedChildren with
    | nil => rfl
    | cons c cs => simp
  unfold parameterRole
  rw [kind_tree, hsplat]

theorem checkParameterOrder_tree (parent : String) (seenDefault : Bool) (ps : List Concrete) :
    checkParameterOrder seenDefault (ps.map (m.tree parent)) = none ↔
      checkParameterOrder seenDefault ps = none := by
  induction ps generalizing seenDefault with
  | nil => rfl
  | cons p ps ih =>
    rw [List.map_cons, checkParameterOrder, checkParameterOrder, parameterRole_tree]
    cases parameterRole p with
    | withDefault => exact ih true
    | star => rfl
    | plain =>
      cases seenDefault with
      | true => simp
      | false => exact ih false
    | neutral => exact ih seenDefault

theorem checkBareAssignment_tree (parent : String) (n : Concrete) :
    checkBareAssignment (m.tree parent n) = none ↔ checkBareAssignment n = none := by
  simp [checkBareAssignment, parts_tree]

theorem checkComprehensionSource_cursor (c : Cursor) :
    checkComprehensionSource (m.cursor c) = none ↔ checkComprehensionSource c = none := by
  simp [checkComprehensionSource_eq_none, cursor, Concrete.childrenByField, List.filter_map,
    Function.comp_def]

theorem invalidTarget?_tree (parent : String) (n : Concrete) :
    invalidTarget? (m.tree parent n) = none ↔ invalidTarget? n = none := by
  induction n using Concrete.inductionOn generalizing parent with
  | node i cs ih =>
    have hchildren : invalidTargetIn? (cs.map (m.tree i.kind)) = none ↔
        invalidTargetIn? cs = none := by
      simp only [invalidTargetIn?_eq_none, List.forall_mem_map, info_tree, isTrivia_tree]
      constructor
      · intro h c hc hnamed htrivia
        exact (ih c hc i.kind).mp (h c hc hnamed htrivia)
      · intro h c hc hnamed htrivia
        exact (ih c hc i.kind).mpr (h c hc hnamed htrivia)
    simp only [invalidTarget?_eq_none, isDeletable, groupsTargets, kind_tree, children_tree]
    exact or_congr_right (and_congr_right fun _ => hchildren)

theorem checkDeleteTargets_tree (parent : String) (n : Concrete) :
    checkDeleteTargets (m.tree parent n) = none ↔ checkDeleteTargets n = none := by
  simp [checkDeleteTargets, invalidTargetIn?_eq_none, invalidTarget?_tree]

/-- Only the checks of modules and blocks look at columns. -/
theorem check_cursor (text moved : List Char) {c : Cursor}
    (hstatements : holdsStatements c.focus.kind = false) :
    check moved (m.cursor c) = none ↔ check text c = none := by
  have hkind := m.kind_cursor c
  by_cases hchecked : c.focus.kind ∈ checkedKinds
  · simp only [checkedKinds, List.mem_cons, List.not_mem_nil, or_false] at hchecked
    rcases hchecked with h | h | h | h | h | h | h | h | h
    · simp [holdsStatements, h] at hstatements
    · simp [holdsStatements, h] at hstatements
    · rw [check_definition (.inl h), check_definition (.inl (hkind.trans h))]
      exact m.checkHasBody_tree _ _
    · rw [check_definition (.inr h), check_definition (.inr (hkind.trans h))]
      exact m.checkHasBody_tree _ _
    · simp only [check, hkind, h]
      simp only [cursor, children_tree]
      exact m.checkParameterOrder_tree _ _ _
    · simp only [check, hkind, h]
      simp only [cursor, children_tree]
      exact m.checkParameterOrder_tree _ _ _
    · simp only [check, hkind, h]
      exact m.checkBareAssignment_tree _ _
    · simp only [check, hkind, h]
      exact m.checkComprehensionSource_cursor c
    · simp only [check, hkind, h]
      exact m.checkDeleteTargets_tree _ _
  · rw [check_of_not_checked hchecked, check_of_not_checked (hkind ▸ hchecked)]

/-! ### Modules and blocks -/

/-- After the move the same statements begin a line in the text that belongs to it. -/
def KeepsLineStarts (text moved : List Char) (t : Concrete) : Prop :=
  ∀ c ∈ cursors t, holdsStatements c.focus.kind = true → ∀ s ∈ c.focus.parts,
    beginsLine moved (m.tree c.focus.kind s) = beginsLine text s

theorem aligned_tree {text moved : List Char} {margin : Nat} {parent : String}
    {statements : List Concrete} (hparent : holdsStatements parent = true)
    (hlines : ∀ s ∈ statements, beginsLine moved (m.tree parent s) = beginsLine text s) :
    Aligned moved margin (statements.map (m.tree parent)) ↔ Aligned text margin statements := by
  simp only [Aligned, List.forall_mem_map, m.startColumn_tree hparent]
  constructor
  · intro h s hs hbegins
    exact h s hs ((hlines s hs).trans hbegins)
  · intro h s hs hbegins
    exact h s hs ((hlines s hs).symm.trans hbegins)

theorem headerEndRow_cursor (b up : Cursor) :
    headerEndRow (m.cursor b) (m.cursor up).focus = headerEndRow b up.focus := by
  unfold headerEndRow
  rw [previousSiblings_cursor, List.find?_map]
  simp only [Function.comp_def, isTrivia_tree]
  cases b.previousSiblings.find? (!·.isTrivia) with
  | none => exact m.startRow_tree _ _
  | some n => simp [Concrete.stop, m.stop_row]

/-- A block is checked against the place where its header stands after the move. -/
theorem wellPlaced_cursor {text moved : List Char} {b up : Cursor}
    (hblock : b.focus.kind = "block") (hup : b.parent? = some up)
    (hlines : ∀ s ∈ b.focus.parts,
      beginsLine moved (m.tree b.focus.kind s) = beginsLine text s)
    (h : WellPlaced text b up) :
    WellPlaced moved (m.cursor b) (m.cursor up) ↔
      (OffHeaderLine b → (m.cursor up).focus.start.column < firstColumn b) := by
  have hholds : holdsStatements b.focus.kind = true := by simp [holdsStatements, hblock]
  have haligned (margin : Nat) : Aligned moved margin (b.focus.parts.map (m.tree b.focus.kind)) ↔
      Aligned text margin b.focus.parts := m.aligned_tree hholds hlines
  obtain ⟨first, rest, hparts, hplaced⟩ := h
  have hparts' : (m.cursor b).focus.parts = (first :: rest).map (m.tree b.focus.kind) := by
    rw [cursor, parts_tree, hparts]
  have hcolumn : firstColumn b = first.start.column := by simp [firstColumn, hparts]
  have hoff : OffHeaderLine b ↔ first.start.row ≠ headerEndRow b up.focus := by
    simp [OffHeaderLine, hblock, hup, hparts]
  rw [hparts] at haligned hplaced
  rw [WellPlaced, hparts', hoff, hcolumn, headerEndRow_cursor]
  -- the rows and the columns of the statements are the old ones; only the header may have moved
  constructor
  · rintro ⟨first', rest', hcons, hplaced'⟩ hrow
    obtain ⟨rfl, rfl⟩ := List.cons_eq_cons.mp hcons
    rw [m.startColumn_tree hholds, m.startRow_tree] at hplaced'
    exact (hplaced' hrow).1
  · intro hleft
    refine ⟨_, _, rfl, ?_⟩
    rw [m.startColumn_tree hholds, m.startRow_tree, haligned]
    intro hrow
    exact ⟨hleft hrow, (hplaced hrow).2⟩

theorem check_module_cursor {text moved : List Char} {c : Cursor}
    (hkind : c.focus.kind = "module")
    (hlines : ∀ s ∈ c.focus.parts,
      beginsLine moved (m.tree c.focus.kind s) = beginsLine text s) :
    check moved (m.cursor c) = none ↔ check text c = none := by
  rw [check_module hkind, check_module ((m.kind_cursor c).trans hkind), checkAlignment_eq_none,
    checkAlignment_eq_none, cursor, parts_tree]
  exact m.aligned_tree (by simp [holdsStatements, hkind]) hlines

/-- Each header is to the left of its block after the move, where the block is not on its line. -/
def LeftOfBlocks (t : Concrete) : Prop :=
  ∀ b ∈ cursors t, ∀ header, b.parent? = some header → OffHeaderLine b →
    (m.cursor header).focus.start.column < firstColumn b

theorem check_block_cursor {text moved : List Char} {b : Cursor} (hkind : b.focus.kind = "block")
    (hlines : ∀ s ∈ b.focus.parts,
      beginsLine moved (m.tree b.focus.kind s) = beginsLine text s)
    (hpass : check text b = none) :
    check moved (m.cursor b) = none ↔
      ∀ header, b.parent? = some header → OffHeaderLine b →
        (m.cursor header).focus.start.column < firstColumn b := by
  rw [check_block hkind] at hpass
  rw [check_block ((m.kind_cursor b).trans hkind)]
  cases hup : b.parent? with
  | none => simp [checkBlock, parent?_cursor, hup]
  | some up =>
    rw [checkBlock_eq_none hup] at hpass
    have hup' : (m.cursor b).parent? = some (m.cursor up) := by rw [parent?_cursor, hup]; rfl
    rw [checkBlock_eq_none hup', m.wellPlaced_cursor hkind hup hlines hpass]
    simp

theorem isProblem_cursor (c : Cursor) : IsProblem (m.cursor c).focus ↔ IsProblem c.focus := by
  simp [IsProblem, cursor]

theorem judge_tree {text moved : List Char} {t : Concrete} {tree : Node}
    (haccepted : judge text t = .ok tree) (hlines : m.KeepsLineStarts text moved t) :
    (∃ tree', judge moved (m.tree "" t) = .ok tree') ↔ m.LeftOfBlocks t := by
  obtain ⟨hproblem, hpass, -⟩ := judge_eq_ok.mp haccepted
  rw [← Concrete.map_focus_cursors, List.forall_mem_map] at hproblem
  have hproblem' : ∀ n ∈ (m.tree "" t).preorder, ¬ IsProblem n := by
    rw [← Concrete.map_focus_cursors, cursors_tree, List.map_map, List.forall_mem_map]
    intro c hc hmoved
    exact hproblem c hc ((m.isProblem_cursor c).mp hmoved)
  constructor
  · rintro ⟨tree', hmoved⟩ b hb header hheader hoff
    obtain ⟨-, hpass', -⟩ := judge_eq_ok.mp hmoved
    rw [cursors_tree, List.forall_mem_map] at hpass'
    have hholds : holdsStatements b.focus.kind = true := by simp [holdsStatements, hoff.1]
    exact (m.check_block_cursor hoff.1 (hlines b hb hholds) (hpass b hb)).mp (hpass' b hb) header
      hheader hoff
  · intro hleft
    refine ⟨_, judge_eq_ok.mpr ⟨hproblem', ?_, rfl⟩⟩
    rw [cursors_tree, List.forall_mem_map]
    intro c hc
    by_cases hholds : holdsStatements c.focus.kind = true
    · have hcase : c.focus.kind = "module" ∨ c.focus.kind = "block" := by
        simpa only [holdsStatements, Bool.or_eq_true, beq_iff_eq] using hholds
      rcases hcase with hkind | hkind
      · exact (m.check_module_cursor hkind (hlines c hc hholds)).mpr (hpass c hc)
      · exact (m.check_block_cursor hkind (hlines c hc hholds) (hpass c hc)).mpr (hleft c hc)
    · rw [m.check_cursor text moved (by simpa using hholds)]
      exact hpass c hc

end Move

/-- If the nodes of an accepted source that are no statements are moved along their rows, the source
stays accepted exactly if each header is to the left of its own block. Where the statements that the
clauses belong to begin does not enter; so the clauses of the moved source are known to be in line
only if a header has been moved too far, or they are in line anyway. -/
theorem accepted_iff_left_of_block (text moved : List Char) (t : Concrete) (tree : Node) (m : Move)
    (haccepted : judge text t = .ok tree) (hlines : m.KeepsLineStarts text moved t) :
    ((∃ tree', judge moved (m.tree "" t) = .ok tree') ↔
      ∀ b ∈ cursors t, ∀ header, b.parent? = some header → OffHeaderLine b →
        (m.cursor header).focus.start.column < firstColumn b) ∧
    (((∃ tree', judge moved (m.tree "" t) = .ok tree') → ClausesAligned moved (m.tree "" t)) ↔
      ((∃ b ∈ cursors t, ∃ header, b.parent? = some header ∧ OffHeaderLine b ∧
        firstColumn b ≤ (m.cursor header).focus.start.column) ∨
          ClausesAligned moved (m.tree "" t))) := by
  have hjudge := m.judge_tree haccepted hlines
  have htoofar : ¬ m.LeftOfBlocks t ↔
      ∃ b ∈ cursors t, ∃ header, b.parent? = some header ∧ OffHeaderLine b ∧
        firstColumn b ≤ (m.cursor header).focus.start.column := by
    simp [Move.LeftOfBlocks]
  refine ⟨hjudge, ?_⟩
  rw [hjudge, imp_iff_not_or, htoofar]

/-! ### An `else` that is out of line -/

/-- The place of a point after `k` blanks have been put in front of a row without a statement. -/
def indentPoint (row k : Nat) (parent : String) (p : Point) : Point :=
  if p.row < row then p
  else if p.row = row && !holdsStatements parent then ⟨p.row, p.column + k, p.byte + k⟩
  else { p with byte := p.byte + k }

theorem row_indentPoint (row k : Nat) (parent : String) (p : Point) :
    (indentPoint row k parent p).row = p.row := by
  unfold indentPoint
  split_ifs <;> rfl

theorem column_indentPoint {parent : String} (h : holdsStatements parent = true) (row k : Nat)
    (p : Point) : (indentPoint row k parent p).column = p.column := by
  simp only [indentPoint, h, Bool.not_true, Bool.and_false, Bool.false_eq_true, if_false]
  split_ifs <;> rfl

/-- Puts `k` blanks in front of a row. -/
def Move.indent (row k : Nat) : Move where
  start parent i := indentPoint row k parent i.start
  stop parent i := indentPoint row k parent i.stop
  start_row parent i := row_indentPoint row k parent i.start
  stop_row parent i := row_indentPoint row k parent i.stop
  statement_column _ i h := column_indentPoint h row k i.start

def branchText : List Char := "if x:\n    y\nelse:\n    z\n".toList

/-- The tree of `branchText`. -/
def branchTree : Concrete :=
  soundNode "module" true none ⟨0, 0, 0⟩ ⟨4, 0, 24⟩ [
    soundNode "if_statement" true none ⟨0, 0, 0⟩ ⟨3, 5, 23⟩ [
      soundNode "if" false none ⟨0, 0, 0⟩ ⟨0, 2, 2⟩ [],
      soundNode "identifier" true (some "condition") ⟨0, 3, 3⟩ ⟨0, 4, 4⟩ [],
      soundNode ":" false none ⟨0, 4, 4⟩ ⟨0, 5, 5⟩ [],
      soundNode "block" true (some "consequence") ⟨1, 4, 10⟩ ⟨1, 5, 11⟩ [
        soundNode "expression_statement" true none ⟨1, 4, 10⟩ ⟨1, 5, 11⟩ [
          soundNode "identifier" true none ⟨1, 4, 10⟩ ⟨1, 5, 11⟩ []]],
      soundNode "else_clause" true (some "alternative") ⟨2, 0, 12⟩ ⟨3, 5, 23⟩ [
        soundNode "else" false none ⟨2, 0, 12⟩ ⟨2, 4, 16⟩ [],
        soundNode ":" false none ⟨2, 4, 16⟩ ⟨2, 5, 17⟩ [],
        soundNode "block" true (some "body") ⟨3, 4, 22⟩ ⟨3, 5, 23⟩ [
          soundNode "expression_statement" true none ⟨3, 4, 22⟩ ⟨3, 5, 23⟩ [
            soundNode "identifier" true none ⟨3, 4, 22⟩ ⟨3, 5, 23⟩ []]]]]]

def strayText : List Char := "if x:\n    y\n  else:\n    z\n".toList

/-- The tree of `strayText`: that of `branchText` with two blanks in front of the `else`. -/
def strayTree : Concrete := (Move.indent 2 2).tree "" branchTree

/-- Two blanks leave the `else` to the left of its block, so the text stays accepted. -/
theorem branchTree_indented :
    judge branchText branchTree = .ok (lower branchText branchTree) ∧
    (Move.indent 2 2).KeepsLineStarts branchText strayText branchTree ∧
    ∃ tree, judge strayText strayTree = .ok tree := by
  have haccepted : judge branchText branchTree = .ok (lower branchText branchTree) :=
    judge_of_all (by decide +kernel) (by decide +kernel)
  have hlines : (Move.indent 2 2).KeepsLineStarts branchText strayText branchTree := by
    unfold Move.KeepsLineStarts
    decide +kernel
  have hleft : ∀ b ∈ cursors branchTree, b.focus.kind = "block" →
      ∀ header ∈ b.parent?,
        ((Move.indent 2 2).cursor header).focus.start.column < firstColumn b := by
    decide +kernel
  refine ⟨haccepted, hlines, ?_⟩
  rw [strayTree, (accepted_iff_left_of_block _ _ _ _ _ haccepted hlines).1]
  intro b hb header hheader hoff
  exact hleft b hb hoff.1 header hheader

/-- The `else` of `strayTree` begins a line and is not in line with its `if`. -/
theorem stray_accepted :
    judge strayText strayTree = .ok (lower strayText strayTree) ∧
    ¬ ClausesAligned strayText strayTree := by
  refine ⟨judge_of_all (by decide +kernel) (by decide +kernel), ?_⟩
  intro haligned
  have hcolumn := haligned _ (List.get_mem (cursors strayTree) ⟨8, by decide⟩) _ rfl
    (by decide) (by decide)
  exact absurd hcolumn (by decide)

end SourceAudit.Syntax
