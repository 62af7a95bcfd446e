import SourceAudit.Proofs.Audit.Analysis
import SourceAudit.Proofs.Audit.Mark
import SourceAudit.Proofs.Audit.Order
import SourceAudit.Proofs.Concrete.Placed
import SourceAudit.Proofs.Syntax.Invariant
import SourceAudit.Proofs.Syntax.Layout
import SourceAudit.Proofs.Syntax.Trivia

/-!
Rows of nodes and lines of texts. Nodes have rows, which count line feeds, and reports have lines,
which are counted on their own. The two agree (`rows_agree`): a syntax error quotes the line that its
node is in, and the lines of all findings are lines of the source, with a byte order mark or without
one.
-/

namespace SourceAudit.Audit

open SourceAudit.Concrete (Cursor cursors placedIn_ofChars)
open SourceAudit.Concrete.Cursor (ofRoot)
open SourceAudit.Parsing (Point)
open SourceAudit.Syntax
open SourceAudit.Syntax.Node (mem_walk walk_eq)
open SourceAudit.Text (LineAt getElem?_rowAt getElem?_rowAt_eq_none length_lines_cons lines rowAt
  rowAt_append rowAt_lt trimChars)

/-! ### Rows of places -/

theorem rowAt_of_isPlace {text : List Char} {p : Point} (h : IsPlace text p) :
    p.byte ≤ byteSize text ∧ p.row = rowAt text p.byte := by
  obtain ⟨before, after, rfl, rfl⟩ := h
  have hrow := rowAt_append before after 0
  rw [Nat.add_zero] at hrow
  have hfront : rowAt after 0 = 0 := rfl
  rw [row_placeAfter, byte_placeAfter, hrow, hfront, byteSize_append]
  exact ⟨Nat.le_add_right _ _, rfl⟩

/-- The nodes start in the text, and their rows count the line feeds before them. -/
def RowsCount (text : List Char) (t : Concrete) : Prop :=
  ∀ n ∈ t.preorder, n.start.byte ≤ byteSize text ∧ n.start.row = rowAt text n.start.byte

instance (text : List Char) (t : Concrete) : Decidable (RowsCount text t) :=
  inferInstanceAs (Decidable (∀ n ∈ t.preorder,
    n.start.byte ≤ byteSize text ∧ n.start.row = rowAt text n.start.byte))

theorem rowsCount_ofChars (text : List Char) : RowsCount text (Concrete.ofChars text) :=
  fun n hn => rowAt_of_isPlace (placedIn_ofChars text n hn).1

/-! ### Lines of syntax errors -/

/-- The error is on the line that the byte offset is in, and quotes it. -/
structure DescribedAt (text : List Char) (p : Nat) (e : SyntaxError) : Prop where
  line : e.line = rowAt text p + 1
  quoted : ∀ line, LineAt text p line → e.offendingText = String.ofList (trimChars line)
  unquoted : (∀ line, ¬ LineAt text p line) → e.offendingText = ""

theorem describedAt_errorAt {text : List Char} {f : Finding} (hle : f.1.byte ≤ byteSize text)
    (hrow : f.1.row = rowAt text f.1.byte) : DescribedAt text f.1.byte (errorAt text f) := by
  refine ⟨by rw [errorAt, hrow], ?_, ?_⟩
  · intro line hline
    rw [errorAt, hrow, List.getD_eq_getElem?_getD, hline.getElem?, Option.getD_some]
  · intro hnone
    have hget : (lines text)[rowAt text f.1.byte]? = none :=
      Option.eq_none_iff_forall_ne_some.mpr fun line hline =>
        hnone line ((getElem?_rowAt hle).mp hline)
    rw [errorAt, hrow, List.getD_eq_getElem?_getD, hget]
    rfl

/-- What a source is rejected for. -/
def reported? (text : List Char) (t : Concrete) : Option Finding :=
  (firstSyntaxProblem? t).or (firstStructuralProblem? text t)

theorem judge_eq_error {text : List Char} {t : Concrete} {e : SyntaxError} :
    judge text t = .error e ↔ ∃ f, reported? text t = some f ∧ errorAt text f = e := by
  unfold judge reported?
  cases firstSyntaxProblem? t with
  | some f => simp
  | none =>
    rw [Option.none_or]
    cases firstStructuralProblem? text t with
    | some f => simp
    | none => simp

/-- A problem is reported where a node starts, unless a block is missing. -/
theorem start_or_lacksBlock {text : List Char} {t : Concrete} {f : Finding}
    (h : reported? text t = some f) : (∃ n ∈ t.preorder, f.1 = n.start) ∨ LacksBlock f.2 := by
  rcases Option.or_eq_some_iff.mp h with hsyntax | ⟨-, hstructural⟩
  · rw [firstSyntaxProblem?_eq] at hsyntax
    obtain ⟨n, hn, hfound⟩ := List.exists_of_findSome?_eq_some hsyntax
    obtain ⟨problem, -, rfl⟩ := Option.map_eq_some_iff.mp hfound
    exact .inl ⟨n, hn, rfl⟩
  · rw [firstStructuralProblem?_eq] at hstructural
    obtain ⟨c, hc, hcheck⟩ := List.exists_of_findSome?_eq_some hstructural
    have hfocus : c.focus ∈ t.preorder := focus_mem_preorder (c := ofRoot t) hc
    cases check_reported hcheck with
    | inside problem hn => exact .inl ⟨_, Syntax.mem_preorder_trans hfocus hn, rfl⟩
    | emptyBlock hup => exact .inr ⟨_, _, rfl⟩
    | noBody => exact .inr ⟨_, _, rfl⟩

/-! ### Lines of nodes below the root -/

/-- A block without statements. -/
def IsEmptyBlock (n : Concrete) : Prop := n.kind = "block" ∧ n.parts = []

/-- The tree of a module, or of a text that is no module at all, whose nodes below the root start at
bytes of the text, empty blocks apart. -/
structure StartsInText (text : List Char) (t : Concrete) : Prop where
  root : t.kind = "module" ∨ t.info.error = true
  below : ∀ n ∈ Concrete.preorderList t.children, IsEmptyBlock n ∨ n.start.byte < byteSize text

/-- The nodes below the root of a tree. -/
def below (tree : Node) : List Node := tree.children.flatMap Node.walk

theorem mem_preorderList_of_mem {t : Concrete} {c d : Cursor} (hc : c ∈ (ofRoot t).children)
    (hd : d ∈ c.subtree) : d.focus ∈ Concrete.preorderList t.children :=
  mem_preorderList.mpr
    ⟨c.focus, focus_mem_children (Cursor.mem_children.mp hc), focus_mem_preorder hd⟩

/-- The nodes below the root of a syntax tree are nodes below the root of the concrete one. -/
theorem mem_below_lower {text : List Char} {t : Concrete} {m : Node}
    (hm : m ∈ below (Syntax.lower text t)) :
    ∃ c ∈ (ofRoot t).children, ∃ d ∈ c.subtree, m.line = d.focus.start.row + 1 := by
  have hchildren : (Syntax.lower text t).children =
      (keptChildren (ofRoot t)).map fun c => Syntax.lower text c.focus :=
    congrArg Node.children (lower_eq text (ofRoot t))
  rw [below, hchildren, List.flatMap_map, List.mem_flatMap] at hm
  obtain ⟨b, hb, hm⟩ := hm
  have hshown := List.mem_map_of_mem (f := shown) hm
  rw [map_shown_walk, List.mem_map] at hshown
  obtain ⟨d, hd, heq⟩ := hshown
  have hkept := kept_sublist (ofRoot t)
  rw [kept_eq, Cursor.subtree_eq, List.cons_sublist_cons] at hkept
  obtain ⟨c, hc, hd⟩ :=
    List.mem_flatMap.mp (hkept.subset (List.mem_flatMap.mpr ⟨b, hb, hd⟩))
  exact ⟨c, hc, d, hd, (congrArg (·.2.1) heq).symm⟩

/-- A block of an accepted tree has statements. -/
theorem not_isEmptyBlock {text : List Char} {b up : Cursor} (hcheck : check text b = none)
    (hup : b.parent? = some up) : ¬ IsEmptyBlock b.focus := by
  rintro ⟨hkind, hparts⟩
  rw [check_block hkind, checkBlock_eq_none hup] at hcheck
  obtain ⟨first, rest, hsome, -⟩ := hcheck
  rw [hparts] at hsome
  cases hsome

/-- The lines of the nodes below the root are lines of the text. -/
theorem line_of_mem_below {text : List Char} {t : Concrete} {tree m : Node}
    (hrows : RowsCount text t) (hstarts : StartsInText text t) (hjudge : judge text t = .ok tree)
    (hm : m ∈ below tree) : 1 ≤ m.line ∧ m.line ≤ (lines text).length := by
  obtain ⟨-, hcheck, rfl⟩ := judge_eq_ok.mp hjudge
  obtain ⟨c, hc, d, hd, hline⟩ := mem_below_lower hm
  have hcursor : d ∈ cursors t := by
    rw [← Cursor.subtree_ofRoot, Cursor.subtree_eq]
    exact List.mem_cons_of_mem _ (List.mem_flatMap.mpr ⟨c, hc, hd⟩)
  obtain ⟨up, hup⟩ : ∃ up, d.parent? = some up := by
    rcases parent_mem_subtree hd with rfl | ⟨up, -, hup⟩
    · exact ⟨_, Cursor.mem_children.mp hc⟩
    · exact ⟨up, hup⟩
  have hbyte : d.focus.start.byte < byteSize text :=
    (hstarts.below _ (mem_preorderList_of_mem hc hd)).resolve_left
      (not_isEmptyBlock (hcheck d hcursor) hup)
  obtain ⟨-, hrow⟩ := hrows _ (focus_mem_preorder (c := ofRoot t) hcursor)
  have hlt := rowAt_lt hbyte
  omega

/-! ### Lines of findings -/

/-- The finding points at nodes below the root, if it points anywhere. -/
structure PointsBelow (tree : Node) (i : Issue) : Prop where
  location : ∀ l, i.location = some l → ∃ n ∈ below tree, l.line = n.line
  span : ∀ s, i.span = some s → ∃ n ∈ below tree, s.endLine = n.line

/-- A node of another kind than the root is below it, and so are all nodes in it. -/
theorem walk_subset_below {tree n : Node} (hn : n ∈ tree.walk) (hkind : n.kind ≠ tree.kind) :
    n.walk ⊆ below tree := by
  obtain ⟨p, hp⟩ := mem_walk.mp hn
  cases p with
  | nil =>
    cases hp
    exact absurd rfl hkind
  | cons i p =>
    obtain ⟨c, hc, hp⟩ := Option.bind_eq_some_iff.mp hp
    have hchild : c.walk ⊆ below tree :=
      (List.infix_flatMap_of_mem (List.mem_of_getElem? hc) _).subset
    exact List.Subset.trans (walk_sublist_of_at? hp).subset hchild

theorem pointsBelow_of_mem_walk {tree n : Node} {i : Issue} (hn : n ∈ tree.walk)
    (hkind : n.kind ≠ tree.kind) (hlocation : i.location = some (locationOf n))
    (hspan : ∀ s, i.span = some s → ∃ last ∈ n.walk, s.endLine = last.line) :
    PointsBelow tree i := by
  have hsub := walk_subset_below hn hkind
  have hself : n ∈ n.walk := by rw [walk_eq]; exact List.mem_cons_self
  constructor
  · intro l hl
    rw [hlocation] at hl
    cases hl
    exact ⟨n, hsub hself, rfl⟩
  · intro s hs
    obtain ⟨last, hlast, hline⟩ := hspan s hs
    exact ⟨last, hsub hlast, hline⟩

/-- In a module all findings with a place are about nodes below the root. -/
theorem pointsBelow_detectAll {threshold : Nat} {tree : Node} {text : List Char}
    {docstring : Option String} (hroot : tree.kind = .module docstring) :
    ∀ i ∈ detectAll threshold tree text, PointsBelow tree i := by
  intro i hi
  simp only [detectAll_eq, List.mem_append] at hi
  rcases hi with ((((hi | hi) | hi) | hi) | hi) | hi
  · unfold moduleDocIssues at hi
    split at hi
    · cases hi
    · cases List.mem_singleton.mp hi
      exact ⟨nofun, nofun⟩
  · obtain ⟨n, hn, hfound⟩ := List.mem_filterMap.mp hi
    rcases definitionDocIssue?_eq_some.mp hfound with hkind | hkind
    · exact pointsBelow_of_mem_walk hn (by simp [hkind, hroot]) rfl nofun
    · exact pointsBelow_of_mem_walk hn (by simp [hkind, hroot]) rfl nofun
  · obtain ⟨f, hf, hfound⟩ := List.mem_filterMap.mp hi
    obtain ⟨hn, hfunction⟩ := List.mem_filter.mp hf
    have hlong : TooLong threshold f i :=
      longFunctionIssue?_eq_some.mp (by rw [hfunction, if_pos rfl, hfound])
    obtain @⟨name, isAsync, docstring, p, last, hkind, hlast, -, -⟩ := hlong
    refine pointsBelow_of_mem_walk hn (by simp [hkind, hroot]) rfl ?_
    rintro s ⟨⟩
    exact ⟨last, mem_walk.mpr ⟨p, hlast⟩, rfl⟩
  · unfold markerIssues at hi
    split at hi
    · cases hi
    · cases List.mem_singleton.mp hi
      exact ⟨nofun, nofun⟩
  · rcases aboutImports_duplicateImportIssues tree with
      ⟨hnone, -⟩ | ⟨p, n, name, ⟨hn, ⟨names, hkind⟩, -⟩, -, hone⟩
    · rw [hnone] at hi
      cases hi
    · rw [hone] at hi
      cases List.mem_singleton.mp hi
      exact pointsBelow_of_mem_walk (mem_walk.mpr ⟨p, hn⟩) (by simp [hkind, hroot]) rfl nofun
  · obtain ⟨n, hn, hfound⟩ := List.mem_filterMap.mp hi
    obtain ⟨hkind⟩ := emptyHandlerIssue?_eq_some.mp hfound
    exact pointsBelow_of_mem_walk hn (by simp [hkind, hroot]) rfl nofun

/-- The places of the finding are on lines of a text with so many lines. -/
structure WithinLines (count : Nat) (i : Issue) : Prop where
  location : ∀ l, i.location = some l → 1 ≤ l.line ∧ l.line ≤ count
  span : ∀ s, i.span = some s → 1 ≤ s.endLine ∧ s.endLine ≤ count

theorem PointsBelow.withinLines {tree : Node} {i : Issue} {count : Nat} (h : PointsBelow tree i)
    (hlines : ∀ n ∈ below tree, 1 ≤ n.line ∧ n.line ≤ count) : WithinLines count i := by
  constructor
  · intro l hl
    obtain ⟨n, hn, hline⟩ := h.location l hl
    exact hline ▸ hlines n hn
  · intro s hs
    obtain ⟨n, hn, hline⟩ := h.span s hs
    exact hline ▸ hlines n hn

/-- A byte order mark takes no line away. -/
theorem length_lines_withoutMark (source : List Char) :
    (lines (withoutMark source)).length ≤ (lines source).length := by
  by_cases hmark : source.head? = some byteOrderMark
  · obtain ⟨cs, rfl⟩ := List.head?_eq_some_iff.mp hmark
    rw [withoutMark_mark]
    by_cases hne : cs = []
    · rw [hne]
      exact Nat.zero_le _
    · exact (length_lines_cons (by decide) hne).ge
  · rw [withoutMark_eq_self hmark]

/-- The findings on a source that is accepted are on lines that are counted. -/
theorem withinLines_inspect {source text : List Char} {t : Concrete} {tree : Node}
    (htext : withoutMark source = text) (hrows : RowsCount text t)
    (hstarts : StartsInText text t) (hjudge : judge text t = .ok tree) (threshold : Nat)
    (file : String) (sector : Sector) :
    ∀ i ∈ (inspect threshold file sector source tree).issues,
      WithinLines (inspect threshold file sector source tree).metrics.linesOfCode i := by
  obtain ⟨hsound, -, rfl⟩ := judge_eq_ok.mp hjudge
  have hmodule : t.kind = "module" :=
    hstarts.root.resolve_right fun herror =>
      hsound t (self_mem_preorder t) (.inr (.inl herror))
  have hroot : (Syntax.lower text t).kind = .module (leadingDocstring? text t) := by
    simp only [kind_lower, kindOf, hmodule]
  intro i hi
  refine (pointsBelow_detectAll hroot i hi).withinLines fun n hn => ?_
  obtain ⟨hfirst, hlast⟩ := line_of_mem_below hrows hstarts hjudge hn
  exact ⟨hfirst, hlast.trans (htext ▸ length_lines_withoutMark source)⟩

theorem issues_analyze {threshold : Nat} {lint : Option Lint} {sector : Option Sector}
    {path : String} {source : String} {i : Issue}
    (hi : i ∈ (analyze threshold lint sector ⟨path, source⟩).issues) :
    ∃ tree, parse source = .ok tree ∧
      i ∈ (inspect threshold path (sector.getD (classify source.toList)) source.toList tree).issues ∧
      (analyze threshold lint sector ⟨path, source⟩).metrics.linesOfCode =
        (lines source.toList).length := by
  unfold analyze at hi ⊢
  cases hparse : parse source with
  | error e =>
    rw [hparse] at hi
    cases hi
  | ok tree =>
    simp only [hparse] at hi ⊢
    obtain ⟨messages, score, hlint⟩ := lintReport_eq lint path
      (inspect threshold path (sector.getD (classify source.toList)) source.toList tree)
    rw [hlint] at hi ⊢
    exact ⟨tree, rfl, hi, rfl⟩

/-! ### Rows and lines -/

/-- The rows of a text agree with its lines. At every byte offset up to the end, the line in the row
of the offset is the one that the offset is in, and there is none exactly at the end of a text that
is empty or ends with a line feed. So, if the rows of a tree count line feeds, as those of a parsed
tree do, the error on a tree that is rejected at the start of a node is on the line of that node and
quotes it; only a missing block is reported elsewhere. And if the nodes below the root start at bytes
of the text, empty blocks apart, the places of all findings on an accepted source are on lines that
are counted, with a byte order mark or without one. -/
theorem rows_agree (text : List Char) (t : Concrete) (hrows : RowsCount text t) :
    (∀ p ≤ byteSize text,
      (∀ line, (lines text)[rowAt text p]? = some line ↔ LineAt text p line) ∧
      ((lines text)[rowAt text p]? = none ↔
        p = byteSize text ∧ (text = [] ∨ text.getLast? = some '\n')) ∧
      (p < byteSize text → rowAt text p < (lines text).length)) ∧
    ((∀ e, judge text t = .error e ↔ ∃ f, reported? text t = some f ∧ errorAt text f = e) ∧
      (∀ n ∈ t.preorder, ∀ problem, reported? text t = some (n.start, problem) →
        ∃ e, judge text t = .error e ∧ DescribedAt text n.start.byte e) ∧
      ∀ f, reported? text t = some f → (∃ n ∈ t.preorder, f.1 = n.start) ∨ LacksBlock f.2) ∧
    (∀ source tree, withoutMark source = text → StartsInText text t → judge text t = .ok tree →
      ∀ threshold file sector, ∀ i ∈ (inspect threshold file sector source tree).issues,
        WithinLines (inspect threshold file sector source tree).metrics.linesOfCode i) ∧
    RowsCount text (Concrete.ofChars text) ∧
    ∀ source : String, withoutMark source.toList = text → Concrete.ofChars text = t →
      parse source = judge text t ∧
      (StartsInText text t → ∀ threshold lint sector path,
        ∀ i ∈ (analyze threshold lint sector ⟨path, source⟩).issues,
          WithinLines (analyze threshold lint sector ⟨path, source⟩).metrics.linesOfCode i) := by
  refine ⟨?_, ⟨fun e => judge_eq_error, ?_, fun f => start_or_lacksBlock⟩, ?_,
    rowsCount_ofChars text, ?_⟩
  · intro p hp
    exact ⟨fun line => getElem?_rowAt hp, getElem?_rowAt_eq_none hp, rowAt_lt⟩
  · intro n hn problem hreported
    obtain ⟨hle, hrow⟩ := hrows n hn
    exact ⟨_, judge_eq_error.mpr ⟨_, hreported, rfl⟩,
      describedAt_errorAt (f := (n.start, problem)) hle hrow⟩
  · intro source tree htext hstarts hjudge
    exact withinLines_inspect htext hrows hstarts hjudge
  · rintro source htext rfl
    have hparse : parse source = judge text (Concrete.ofChars text) := by rw [parse, htext]
    refine ⟨hparse, ?_⟩
    intro hstarts threshold lint sector path i hi
    obtain ⟨tree, haccepted, hi, hcount⟩ := issues_analyze hi
    rw [hcount]
    exact withinLines_inspect htext hrows hstarts (hparse ▸ haccepted) threshold path _ i hi

/-- Three lines, the last without an ending. -/
def threeLines : List Char := "def f():\r\n    x\r\n    y".toList

/-- The tree of `threeLines`. -/
def threeLinesTree : Concrete :=
  soundNode "module" true none ⟨0, 0, 0⟩ ⟨2, 5, 22⟩ [
    soundNode "function_definition" true none ⟨0, 0, 0⟩ ⟨2, 5, 22⟩ [
      soundNode "def" false none ⟨0, 0, 0⟩ ⟨0, 3, 3⟩ [],
      soundNode "identifier" true (some "name") ⟨0, 4, 4⟩ ⟨0, 5, 5⟩ [],
      soundNode "parameters" true (some "parameters") ⟨0, 5, 5⟩ ⟨0, 7, 7⟩ [
        soundNode "(" false none ⟨0, 5, 5⟩ ⟨0, 6, 6⟩ [],
        soundNode ")" false none ⟨0, 6, 6⟩ ⟨0, 7, 7⟩ []],
      soundNode ":" false none ⟨0, 7, 7⟩ ⟨0, 8, 8⟩ [],
      soundNode "block" true (some "body") ⟨1, 4, 14⟩ ⟨2, 5, 22⟩ [
        soundNode "expression_statement" true none ⟨1, 4, 14⟩ ⟨1, 5, 15⟩ [
          soundNode "identifier" true none ⟨1, 4, 14⟩ ⟨1, 5, 15⟩ []],
        soundNode "expression_statement" true none ⟨2, 4, 21⟩ ⟨2, 5, 22⟩ [
          soundNode "identifier" true none ⟨2, 4, 21⟩ ⟨2, 5, 22⟩ []]]]]

/-- A statement that is rejected, after a blank line. -/
def rejectedText : List Char := "\r\nprint 1".toList

/-- The tree of `rejectedText`. -/
def rejectedTree : Concrete :=
  soundNode "module" true none ⟨1, 0, 2⟩ ⟨1, 7, 9⟩ [
    soundNode "print_statement" true none ⟨1, 0, 2⟩ ⟨1, 7, 9⟩ [
      soundNode "print" false none ⟨1, 0, 2⟩ ⟨1, 5, 7⟩ [],
      soundNode "integer" true (some "argument") ⟨1, 6, 8⟩ ⟨1, 7, 9⟩ []]]

theorem startsInText_threeLinesTree : StartsInText threeLines threeLinesTree := by
  refine ⟨.inl rfl, ?_⟩
  have hall : ∀ n ∈ Concrete.preorderList threeLinesTree.children,
      n.start.byte < byteSize threeLines := by decide +kernel
  exact fun n hn => .inr (hall n hn)

/-- A function that ends on the last line of a source with a mark, and a statement that is rejected
on the second line of another. -/
theorem threeLinesTree_rows :
    (∃ tree, judge threeLines threeLinesTree = .ok tree ∧
      (inspect 1 "f.py" .unknown (byteOrderMark :: threeLines) tree).metrics.linesOfCode = 3 ∧
      (∃ i ∈ (inspect 1 "f.py" .unknown (byteOrderMark :: threeLines) tree).issues,
        i.span = some ⟨1, 3, 2⟩) ∧
      ∀ i ∈ (inspect 1 "f.py" .unknown (byteOrderMark :: threeLines) tree).issues,
        WithinLines 3 i) ∧
    ∃ e, judge rejectedText rejectedTree = .error e ∧ DescribedAt rejectedText 2 e := by
  have haccepted : judge threeLines threeLinesTree =
      .ok (Syntax.lower threeLines threeLinesTree) :=
    judge_of_all (by decide +kernel) (by decide +kernel)
  have hissue : ((inspect 1 "f.py" .unknown (byteOrderMark :: threeLines)
      (Syntax.lower threeLines threeLinesTree)).issues.any fun i => i.span = some ⟨1, 3, 2⟩) =
        true := by decide +kernel
  obtain ⟨-, -, hwithin, -⟩ := rows_agree threeLines threeLinesTree (by decide +kernel)
  obtain ⟨-, ⟨-, hdescribed, -⟩, -, -⟩ := rows_agree rejectedText rejectedTree (by decide +kernel)
  refine ⟨⟨_, haccepted, by decide, by simpa using hissue, ?_⟩, ?_⟩
  · exact hwithin _ _ (withoutMark_mark _) startsInText_threeLinesTree haccepted 1 "f.py" .unknown
  · exact hdescribed _ (Syntax.child_mem_preorder (Syntax.self_mem_preorder _) List.mem_cons_self)
      .printStatement (by decide +kernel)

end SourceAudit.Audit
