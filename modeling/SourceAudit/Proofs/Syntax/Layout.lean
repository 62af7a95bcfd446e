import Mathlib.Data.List.Chain
import SourceAudit.Proofs.Syntax.Verdict

/-!
Layout of accepted sources. The checks look at one block, module or definition at a time; passed
everywhere, they give the layout of the whole tree (`accepted_layout`): blocks have statements,
begin to the right of their headers and are aligned, so blocks inside blocks move further and
further to the right (`columns_of_nested`).
-/

namespace SourceAudit.Syntax

open SourceAudit.Parsing (Point)
open SourceAudit.Concrete (Cursor cursors)

/-! ### What a passed check says -/

/-- The statements that begin a line all start at `column`. -/
def Aligned (text : List Char) (column : Nat) (statements : List Concrete) : Prop :=
  ∀ s ∈ statements, beginsLine text s = true → s.start.column = column

theorem checkAlignment_eq_none {text : List Char} {column : Nat} {statements : List Concrete} :
    checkAlignment text column statements = none ↔ Aligned text column statements := by
  simp [checkAlignment, Aligned, List.find?_eq_none]

/-- A block with this parent passes: it has a statement, and unless the first one is on the row
where the header ends, it stands to the right of the header and the others stand below it. -/
def WellPlaced (text : List Char) (b up : Cursor) : Prop :=
  ∃ first rest, b.focus.parts = first :: rest ∧
    (first.start.row ≠ headerEndRow b up.focus →
      up.focus.start.column < first.start.column ∧
        Aligned text first.start.column b.focus.parts)

theorem checkBlock_eq_none {text : List Char} {b up : Cursor} (hup : b.parent? = some up) :
    checkBlock text b = none ↔ WellPlaced text b up := by
  unfold checkBlock WellPlaced
  rw [hup]
  cases hparts : b.focus.parts with
  | nil => simp
  | cons first rest =>
    by_cases hrow : first.start.row = headerEndRow b up.focus
    · simp [hrow]
    · by_cases hcolumn : first.start.column ≤ up.focus.start.column
      · have hleft : ¬ up.focus.start.column < first.start.column := by omega
        simp [hrow, hcolumn, hleft]
      · have hright : up.focus.start.column < first.start.column := by omega
        simp [hrow, hcolumn, hright, checkAlignment_eq_none]

theorem checkHasBody_eq_none {n : Concrete} :
    checkHasBody n = none ↔ ∃ body ∈ n.children, body.info.field = some "body" := by
  simp [checkHasBody, Concrete.childByField?]

theorem check_module {text : List Char} {c : Cursor} (h : c.focus.kind = "module") :
    check text c = checkAlignment text 0 c.focus.parts := by
  simp [check, h]

theorem check_block {text : List Char} {c : Cursor} (h : c.focus.kind = "block") :
    check text c = checkBlock text c := by
  simp [check, h]

/-- Functions and classes, which have a body. -/
def IsDefinition (n : Concrete) : Prop :=
  n.kind = "function_definition" ∨ n.kind = "class_definition"

theorem check_definition {text : List Char} {c : Cursor} (h : IsDefinition c.focus) :
    check text c = checkHasBody c.focus := by
  rcases h with h | h
  · simp [check, h]
  · simp [check, h]

/-! ### Blocks inside blocks -/

/-- The column of the first statement of a block. -/
def firstColumn (b : Cursor) : Nat :=
  match b.focus.parts with
  | [] => 0
  | first :: _ => first.start.column

/-- A block whose first statement is not on the row where the header ends. -/
def OffHeaderLine (b : Cursor) : Prop :=
  b.focus.kind = "block" ∧ ∃ up first rest, b.parent? = some up ∧
    b.focus.parts = first :: rest ∧ first.start.row ≠ headerEndRow b up.focus

/-- The header of the inner block is a statement of the outer one and begins its line. -/
def NestsIn (text : List Char) (outer inner : Cursor) : Prop :=
  ∃ header : Cursor, inner.parent? = some header ∧ header.parent? = some outer ∧
    header.focus ∈ outer.focus.parts ∧ beginsLine text header.focus = true

theorem offHeaderLine_wellPlaced {text : List Char} {b : Cursor} (hcheck : check text b = none)
    (h : OffHeaderLine b) :
    ∃ up, b.parent? = some up ∧ up.focus.start.column < firstColumn b ∧
      Aligned text (firstColumn b) b.focus.parts := by
  obtain ⟨hkind, up, first, rest, hup, hparts, hrow⟩ := h
  rw [check_block hkind, checkBlock_eq_none hup] at hcheck
  obtain ⟨first', rest', hparts', hplaced⟩ := hcheck
  obtain ⟨rfl, rfl⟩ := List.cons_eq_cons.mp (hparts.symm.trans hparts')
  have hcolumn : firstColumn b = first.start.column := by simp [firstColumn, hparts]
  rw [hcolumn]
  exact ⟨up, hup, hplaced hrow⟩

/-- The step from a block to one inside it goes to the right. -/
theorem firstColumn_lt_of_nestsIn {text : List Char} {outer inner : Cursor}
    (houter : check text outer = none) (hinner : check text inner = none)
    (hoff : OffHeaderLine outer) (hoff' : OffHeaderLine inner) (h : NestsIn text outer inner) :
    firstColumn outer < firstColumn inner := by
  obtain ⟨header, hparent, -, hmem, hbegins⟩ := h
  obtain ⟨-, -, -, haligned⟩ := offHeaderLine_wellPlaced houter hoff
  obtain ⟨up, hup, hright, -⟩ := offHeaderLine_wellPlaced hinner hoff'
  rw [hparent] at hup
  cases hup
  rw [← haligned header.focus hmem hbegins]
  exact hright

/-- In an increasing list that starts above `k` the last number is at least `k` plus the length. -/
theorem add_length_le_getLast {columns : List Nat} {k : Nat} (h : columns.IsChain (· < ·))
    (hfirst : ∀ a, columns.head? = some a → k < a) :
    ∀ b, columns.getLast? = some b → k + columns.length ≤ b := by
  induction columns generalizing k with
  | nil =>
    intro b hlast
    cases hlast
  | cons a columns ih =>
    intro b hlast
    have ha := hfirst a rfl
    cases columns with
    | nil =>
      obtain rfl : a = b := by simpa using hlast
      simp only [List.length_cons, List.length_nil]
      omega
    | cons c columns =>
      obtain ⟨hstep, hrest⟩ := List.isChain_cons_cons.mp h
      have hnext : ∀ a, (c :: columns).head? = some a → k + 1 < a := by
        rintro _ ⟨⟩
        omega
      have hle := ih hrest hnext b (by simpa using hlast)
      simp only [List.length_cons] at hle ⊢
      omega

/-- Along a chain of blocks, each inside the one before it, the columns increase, so that the last
one has at least as many columns to its left as the chain has blocks. -/
theorem columns_of_nested {text : List Char} {bs : List Cursor}
    (hpass : ∀ b ∈ bs, check text b = none ∧ OffHeaderLine b) (hchain : bs.IsChain (NestsIn text)) :
    (bs.map firstColumn).Pairwise (· < ·) ∧
      ∀ b, bs.getLast? = some b → bs.length ≤ firstColumn b := by
  have hincreasing : (bs.map firstColumn).IsChain (· < ·) := by
    rw [List.isChain_map]
    refine hchain.imp_of_mem_imp ?_
    intro b d hb hd hnests
    obtain ⟨hbpass, hboff⟩ := hpass b hb
    obtain ⟨hdpass, hdoff⟩ := hpass d hd
    exact firstColumn_lt_of_nestsIn hbpass hdpass hboff hdoff hnests
  have hfirst : ∀ a, (bs.map firstColumn).head? = some a → 0 < a := by
    intro a ha
    rw [List.head?_map, Option.map_eq_some_iff] at ha
    obtain ⟨d, hd, rfl⟩ := ha
    obtain ⟨hdpass, hdoff⟩ := hpass d (List.mem_of_mem_head? hd)
    obtain ⟨up, -, hright, -⟩ := offHeaderLine_wellPlaced hdpass hdoff
    omega
  refine ⟨List.isChain_iff_pairwise.mp hincreasing, ?_⟩
  intro b hlast
  have hle := add_length_le_getLast hincreasing hfirst (firstColumn b) (by simp [hlast])
  simpa using hle

/-! ### The layout of a source -/

/-- In the tree of an accepted source every block has a statement, and unless the first one is on
the row where the header ends, the block stands to the right of the header and is aligned; the
statements of a module begin at the left margin; functions and classes have a body; and blocks
inside blocks move to the right with every step. -/
theorem accepted_layout (text : List Char) (t : Concrete) (tree : Node)
    (haccepted : judge text t = .ok tree) :
    (∀ b ∈ cursors t, b.focus.kind = "block" → ∀ up, b.parent? = some up →
      ∃ first rest, b.focus.parts = first :: rest ∧
        (first.start.row ≠ headerEndRow b up.focus →
          up.focus.start.column < first.start.column ∧
          ∀ s ∈ b.focus.parts, beginsLine text s = true →
            s.start.column = first.start.column)) ∧
    (∀ m ∈ cursors t, m.focus.kind = "module" → ∀ s ∈ m.focus.parts,
      beginsLine text s = true → s.start.column = 0) ∧
    (∀ d ∈ cursors t, d.focus.kind = "function_definition" ∨ d.focus.kind = "class_definition" →
      ∃ body ∈ d.focus.children, body.info.field = some "body") ∧
    (∀ bs : List Cursor, (∀ b ∈ bs, b ∈ cursors t ∧ OffHeaderLine b) →
      bs.IsChain (NestsIn text) →
        (bs.map firstColumn).Pairwise (· < ·) ∧
          ∀ b, bs.getLast? = some b → bs.length ≤ firstColumn b) := by
  obtain ⟨-, hpass, -⟩ := judge_eq_ok.mp haccepted
  refine ⟨?_, ?_, ?_, ?_⟩
  · intro b hb hkind up hup
    have hcheck := hpass b hb
    rw [check_block hkind, checkBlock_eq_none hup] at hcheck
    exact hcheck
  · intro m hm hkind
    have hcheck := hpass m hm
    rw [check_module hkind, checkAlignment_eq_none] at hcheck
    exact hcheck
  · intro d hd hkind
    have hcheck := hpass d hd
    rw [check_definition hkind, checkHasBody_eq_none] at hcheck
    exact hcheck
  · intro bs hbs hchain
    exact columns_of_nested (fun b hb => ⟨hpass b (hbs b hb).1, (hbs b hb).2⟩) hchain

/-- A node that is neither missing nor an error. -/
def soundNode (kind : String) (named : Bool) (field : Option String) (start stop : Point)
    (children : List Concrete) : Concrete :=
  .node { kind, named, missing := false, error := false, field, start, stop } children

def nestedText : List Char := "if x:\n  if y:\n    z\n".toList

/-- The tree of `nestedText`: a block inside a block. -/
def nestedTree : Concrete :=
  soundNode "module" true none ⟨0, 0, 0⟩ ⟨3, 0, 20⟩ [
    soundNode "if_statement" true none ⟨0, 0, 0⟩ ⟨2, 5, 19⟩ [
      soundNode "if" false none ⟨0, 0, 0⟩ ⟨0, 2, 2⟩ [],
      soundNode "identifier" true (some "condition") ⟨0, 3, 3⟩ ⟨0, 4, 4⟩ [],
      soundNode ":" false none ⟨0, 4, 4⟩ ⟨0, 5, 5⟩ [],
      soundNode "block" true (some "consequence") ⟨1, 2, 8⟩ ⟨2, 5, 19⟩ [
        soundNode "if_statement" true none ⟨1, 2, 8⟩ ⟨2, 5, 19⟩ [
          soundNode "if" false none ⟨1, 2, 8⟩ ⟨1, 4, 10⟩ [],
          soundNode "identifier" true (some "condition") ⟨1, 5, 11⟩ ⟨1, 6, 12⟩ [],
          soundNode ":" false none ⟨1, 6, 12⟩ ⟨1, 7, 13⟩ [],
          soundNode "block" true (some "consequence") ⟨2, 4, 18⟩ ⟨2, 5, 19⟩ [
            soundNode "expression_statement" true none ⟨2, 4, 18⟩ ⟨2, 5, 19⟩ [
              soundNode "identifier" true none ⟨2, 4, 18⟩ ⟨2, 5, 19⟩ []]]]]]]

theorem judge_of_all {text : List Char} {t : Concrete}
    (hproblem : t.preorder.all (fun n => (nodeProblem? n).isNone) = true)
    (hcheck : (cursors t).all (fun c => (check text c).isNone) = true) :
    judge text t = .ok (lower text t) := by
  refine judge_eq_ok.mpr ⟨?_, ?_, rfl⟩
  · intro n hn
    exact nodeProblem?_eq_none.mp (Option.isNone_iff_eq_none.mp (List.all_eq_true.mp hproblem n hn))
  · intro c hc
    exact Option.isNone_iff_eq_none.mp (List.all_eq_true.mp hcheck c hc)

/-- The inner block of `nestedTree` has two columns to its left at least. -/
theorem nestedTree_layout :
    judge nestedText nestedTree = .ok (lower nestedText nestedTree) ∧
      ∃ outer ∈ cursors nestedTree, ∃ inner ∈ cursors nestedTree,
        OffHeaderLine outer ∧ OffHeaderLine inner ∧ NestsIn nestedText outer inner ∧
          firstColumn outer < firstColumn inner ∧ 2 ≤ firstColumn inner := by
  have haccepted : judge nestedText nestedTree = .ok (lower nestedText nestedTree) :=
    judge_of_all (by decide +kernel) (by decide +kernel)
  refine ⟨haccepted, ?_⟩
  have houter := List.get_mem (cursors nestedTree) ⟨5, by decide⟩
  have hinner := List.get_mem (cursors nestedTree) ⟨10, by decide⟩
  have hoff : OffHeaderLine ((cursors nestedTree).get ⟨5, by decide⟩) :=
    ⟨by decide, _, _, _, rfl, rfl, by decide⟩
  have hoff' : OffHeaderLine ((cursors nestedTree).get ⟨10, by decide⟩) :=
    ⟨by decide, _, _, _, rfl, rfl, by decide⟩
  have hnests : NestsIn nestedText ((cursors nestedTree).get ⟨5, by decide⟩)
      ((cursors nestedTree).get ⟨10, by decide⟩) :=
    ⟨(cursors nestedTree).get ⟨6, by decide⟩, rfl, rfl, List.mem_cons_self, by decide⟩
  refine ⟨_, houter, _, hinner, hoff, hoff', hnests, ?_⟩
  obtain ⟨-, -, -, hchains⟩ := accepted_layout nestedText nestedTree _ haccepted
  obtain ⟨hincreasing, hdeep⟩ := hchains [_, _]
    (List.forall_mem_cons.mpr ⟨⟨houter, hoff⟩, List.forall_mem_singleton.mpr ⟨hinner, hoff'⟩⟩)
    (List.isChain_pair.mpr hnests)
  exact ⟨List.rel_of_pairwise_cons hincreasing List.mem_cons_self, hdeep _ rfl⟩

end SourceAudit.Syntax
