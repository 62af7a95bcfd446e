import SourceAudit.Proofs.Concrete.Placed

/-!
Indentation of the statements of a module. The language measures indentation from the last form feed
of a line on, and only where a logical line starts (`Misindented`); the check of a module counts the
bytes before a statement on its line. The check misses no statement that is misindented, and what it
reports is misindented exactly if its line does not go on from the line above and its indentation
does not end with a form feed (`alignment_strictness`); so a statement behind a form feed is
reported although it is in place (`formFeed_reported`).
-/

namespace SourceAudit.Syntax

open SourceAudit.Parsing (Point)
open SourceAudit.Concrete (PlacedIn placedIn_ofChars)

/-! ### Indentation as the language measures it -/

/-- The column after one more character of the indentation: a tab leads to the next multiple of
eight, a form feed back to the margin. -/
def indentAfter (column : Nat) (c : Char) : Nat :=
  if c = '\t' then (column / 8 + 1) * 8
  else if c = '\x0c' then 0
  else column + 1

def indentationOf (line : List Char) : Nat := line.foldl indentAfter 0

theorem indentationOf_pos {line : List Char} :
    0 < indentationOf line ↔ line ≠ [] ∧ line.getLast? ≠ some '\x0c' := by
  induction line using List.reverseRecOn with
  | nil => simp [indentationOf]
  | append_singleton line c _ =>
    rw [indentationOf, List.foldl_concat, indentAfter]
    split
    · rename_i htab
      simp [htab]
    split
    · rename_i hfeed
      simp [hfeed]
    · rename_i hfeed
      simp [hfeed]

/-- The text before a node. -/
def textBefore (text : List Char) (n : Concrete) : List Char := sliceFrom 0 0 n.start.byte text

/-- What stands before a node on its own line. -/
def lineBefore (text : List Char) (n : Concrete) : List Char := lastLine (textBefore text n)

/-- The lines above that of a node. -/
def linesAbove (text : List Char) (n : Concrete) : List Char :=
  (textBefore text n).rdropWhile (· ≠ '\n')

/-- The line of the node goes on from the line above: that one ends in a backslash, and not in a
comment. -/
def Continued (text : List Char) (t n : Concrete) : Prop :=
  (∃ above, linesAbove text n = above ++ ['\\', '\n'] ∨
    linesAbove text n = above ++ ['\\', '\r', '\n']) ∧
  ∀ c ∈ t.preorder, c.kind = "comment" → c.stop.row + 1 ≠ n.start.row

/-- A logical line starts with the node. -/
def StartsLogicalLine (text : List Char) (t n : Concrete) : Prop :=
  (∀ c ∈ lineBefore text n, isIndentation c = true) ∧ ¬ Continued text t n

/-- The statement starts a logical line that is indented, which is an error in a module. -/
def Misindented (text : List Char) (t s : Concrete) : Prop :=
  StartsLogicalLine text t s ∧ 0 < indentationOf (lineBefore text s)

/-! ### What the check looks at -/

theorem textBefore_eq {text before after : List Char} {n : Concrete}
    (htext : text = before ++ after) (hstart : n.start = placeAfter before) :
    textBefore text n = before := by
  have hfront := sliceFrom_front (Nat.le_refl 0) before after
  rw [Nat.zero_add] at hfront
  rw [textBefore, hstart, byte_placeAfter, htext, hfront]

theorem column_eq {text : List Char} {n : Concrete} (h : IsPlace text n.start) :
    n.start.column = byteSize (lineBefore text n) := by
  obtain ⟨before, after, htext, hstart⟩ := h
  rw [lineBefore, textBefore_eq htext hstart, hstart, column_placeAfter]

/-- The bytes between the beginning of the line and the node are those of the text there. -/
theorem beginsLine_eq {text : List Char} {n : Concrete} (h : IsPlace text n.start) :
    beginsLine text n = (lineBefore text n).all isIndentation := by
  obtain ⟨before, after, htext, hstart⟩ := h
  have hsplit : before.rdropWhile (· ≠ '\n') ++ lastLine before = before :=
    List.rdropWhile_append_rtakeWhile
  have hsize : byteSize before = 0 + byteSize (before.rdropWhile (· ≠ '\n')) +
      byteSize (lastLine before) := by
    rw [Nat.zero_add, ← byteSize_append, hsplit]
  have hlineStart : byteSize before - byteSize (lastLine before) =
      0 + byteSize (before.rdropWhile (· ≠ '\n')) := by omega
  have hslice := sliceFrom_between 0 (before.rdropWhile (· ≠ '\n')) (lastLine before) after
  rw [← List.append_assoc, hsplit, ← hsize, ← hlineStart, ← htext] at hslice
  rw [beginsLine, lineBefore, textBefore_eq htext hstart, hstart, byte_placeAfter,
    column_placeAfter, hslice]

/-- The check reports statements with something before them on their line, if it is indentation. -/
def Flagged (text : List Char) (s : Concrete) : Prop :=
  lineBefore text s ≠ [] ∧ ∀ c ∈ lineBefore text s, isIndentation c = true

theorem flagged_iff {text : List Char} {s : Concrete} (h : IsPlace text s.start) :
    (beginsLine text s && decide (s.start.column ≠ 0)) = true ↔ Flagged text s := by
  rw [Bool.and_eq_true, decide_eq_true_eq, beginsLine_eq h, List.all_eq_true, column_eq h, Ne,
    byteSize_eq_zero]
  exact and_comm

theorem Misindented.flagged {text : List Char} {t s : Concrete} (h : Misindented text t s) :
    Flagged text s :=
  ⟨(indentationOf_pos.mp h.2).1, h.1.1⟩

theorem Flagged.misindented_iff {text : List Char} {t s : Concrete} (h : Flagged text s) :
    Misindented text t s ↔
      ¬ Continued text t s ∧ (lineBefore text s).getLast? ≠ some '\x0c' := by
  obtain ⟨hne, hindentation⟩ := h
  rw [Misindented, StartsLogicalLine, indentationOf_pos]
  constructor
  · rintro ⟨⟨-, hfresh⟩, -, hlast⟩
    exact ⟨hfresh, hlast⟩
  · rintro ⟨hfresh, hlast⟩
    exact ⟨⟨hindentation, hfresh⟩, hne, hlast⟩

theorem checkAlignment_eq_some {text : List Char} {statements : List Concrete} {p : Point}
    {problem : Problem} (hplaced : ∀ s ∈ statements, IsPlace text s.start)
    (h : checkAlignment text 0 statements = some (p, problem)) :
    problem = .unexpectedIndent ∧ ∃ s ∈ statements, s.start = p ∧ Flagged text s := by
  obtain ⟨s, hfind, hs⟩ := Option.map_eq_some_iff.mp h
  have hmem := List.mem_of_find?_eq_some hfind
  have hfound := List.find?_some hfind
  have hflagged := (flagged_iff (hplaced s hmem)).mp hfound
  have hcolumn : s.start.column > 0 := by
    have hne := byteSize_eq_zero.not.mpr hflagged.1
    rw [← column_eq (hplaced s hmem)] at hne
    omega
  rw [if_pos hcolumn] at hs
  cases hs
  exact ⟨rfl, s, hmem, rfl, hflagged⟩

/-! ### Texts without form feeds and backslashes -/

theorem textBefore_subset {text : List Char} {n : Concrete} (h : IsPlace text n.start) {c : Char}
    (hc : c ∈ textBefore text n) : c ∈ text := by
  obtain ⟨before, after, htext, hstart⟩ := h
  rw [textBefore_eq htext hstart] at hc
  rw [htext]
  exact List.mem_append_left _ hc

theorem not_continued {text : List Char} {t n : Concrete} (h : IsPlace text n.start)
    (hbackslash : '\\' ∉ text) : ¬ Continued text t n := by
  rintro ⟨⟨above, habove⟩, -⟩
  apply hbackslash
  apply textBefore_subset h
  apply (List.rdropWhile_prefix _ _).subset
  change '\\' ∈ linesAbove text n
  rcases habove with habove | habove
  · simp [habove]
  · simp [habove]

theorem getLast?_lineBefore {text : List Char} {n : Concrete} (h : IsPlace text n.start)
    (hfeed : '\x0c' ∉ text) : (lineBefore text n).getLast? ≠ some '\x0c' := by
  intro hlast
  apply hfeed
  apply textBefore_subset h
  exact (List.rtakeWhile_suffix _ _).subset (List.mem_of_getLast? hlast)

/-! ### How strict the check is -/

/-- All nodes of parsed trees are in their text. In such a tree the check of a module misses no
statement that is misindented. What it reports is a statement that is misindented exactly if its
line does not go on from the one above and its indentation does not end with a form feed; so in a
text without form feeds and backslashes the report is always right. -/
theorem alignment_strictness (text : List Char) :
    PlacedIn text (Concrete.ofChars text) ∧
    ∀ t, PlacedIn text t →
      (checkAlignment text 0 t.parts = none → ∀ s ∈ t.parts, ¬ Misindented text t s) ∧
      (∀ p problem, checkAlignment text 0 t.parts = some (p, problem) →
        problem = .unexpectedIndent ∧ ∃ s ∈ t.parts, s.start = p ∧
          (Misindented text t s ↔
            ¬ Continued text t s ∧ (lineBefore text s).getLast? ≠ some '\x0c') ∧
          ('\x0c' ∉ text → '\\' ∉ text → Misindented text t s)) := by
  refine ⟨placedIn_ofChars text, ?_⟩
  intro t ht
  have hplaced : ∀ s ∈ t.parts, IsPlace text s.start := by
    intro s hs
    have hchild : s ∈ t.children := by
      rw [Concrete.parts, Concrete.namedChildren] at hs
      exact List.mem_of_mem_filter (List.mem_of_mem_filter hs)
    exact (ht s (child_mem_preorder (self_mem_preorder t) hchild)).1
  refine ⟨?_, ?_⟩
  · intro hnone s hs hmis
    rw [checkAlignment_eq_none] at hnone
    obtain ⟨hbegins, hcolumn⟩ :=
      (Bool.and_eq_true _ _).mp ((flagged_iff (hplaced s hs)).mpr hmis.flagged)
    exact of_decide_eq_true hcolumn (hnone s hs hbegins)
  · intro p problem hsome
    obtain ⟨hproblem, s, hs, hstart, hflagged⟩ := checkAlignment_eq_some hplaced hsome
    have hiff := hflagged.misindented_iff (t := t)
    refine ⟨hproblem, s, hs, hstart, hiff, ?_⟩
    intro hfeed hbackslash
    exact hiff.mpr
      ⟨not_continued (hplaced s hs) hbackslash, getLast?_lineBefore (hplaced s hs) hfeed⟩

def indentedText : List Char := "x\n  y\n".toList

/-- The tree of `indentedText`: two statements, the second of them indented. -/
def indentedTree : Concrete :=
  soundNode "module" true none ⟨0, 0, 0⟩ ⟨2, 0, 6⟩ [
    soundNode "expression_statement" true none ⟨0, 0, 0⟩ ⟨0, 1, 1⟩ [
      soundNode "identifier" true none ⟨0, 0, 0⟩ ⟨0, 1, 1⟩ []],
    soundNode "expression_statement" true none ⟨1, 2, 4⟩ ⟨1, 3, 5⟩ [
      soundNode "identifier" true none ⟨1, 2, 4⟩ ⟨1, 3, 5⟩ []]]

/-- The second statement of `indentedTree` is rightly reported. -/
theorem indentedTree_misindented :
    PlacedIn indentedText indentedTree ∧
    checkAlignment indentedText 0 indentedTree.parts =
      some (⟨1, 2, 4⟩, .unexpectedIndent) ∧
    ∃ s ∈ indentedTree.parts, s.start = ⟨1, 2, 4⟩ ∧ Misindented indentedText indentedTree s := by
  have hplaced : PlacedIn indentedText indentedTree := by decide +kernel
  have hreport : checkAlignment indentedText 0 indentedTree.parts =
      some (⟨1, 2, 4⟩, .unexpectedIndent) := by decide +kernel
  obtain ⟨-, s, hs, hstart, -, hplain⟩ :=
    ((alignment_strictness indentedText).2 indentedTree hplaced).2 _ _ hreport
  exact ⟨hplaced, hreport, s, hs, hstart, hplain (by decide) (by decide)⟩

def formFeedText : List Char := "\x0cx\n".toList

/-- The tree of `formFeedText`: a statement behind a form feed. -/
def formFeedTree : Concrete :=
  soundNode "module" true none ⟨0, 1, 1⟩ ⟨1, 0, 3⟩ [
    soundNode "expression_statement" true none ⟨0, 1, 1⟩ ⟨0, 2, 2⟩ [
      soundNode "identifier" true none ⟨0, 1, 1⟩ ⟨0, 2, 2⟩ []]]

/-- The statement behind a form feed is reported, although it is not indented and nothing else is
wrong with the tree. -/
theorem formFeed_reported :
    PlacedIn formFeedText formFeedTree ∧ firstSyntaxProblem? formFeedTree = none ∧
    checkAlignment formFeedText 0 formFeedTree.parts =
      some (⟨0, 1, 1⟩, .unexpectedIndent) ∧
    ∀ s ∈ formFeedTree.parts,
      indentationOf (lineBefore formFeedText s) = 0 ∧
        ¬ Misindented formFeedText formFeedTree s := by
  have hzero : ∀ s ∈ formFeedTree.parts, indentationOf (lineBefore formFeedText s) = 0 := by
    decide +kernel
  have hsound : ∀ n ∈ formFeedTree.preorder, nodeProblem? n = none := by decide +kernel
  refine ⟨by decide +kernel,
    firstSyntaxProblem?_eq_none.mpr fun n hn => nodeProblem?_eq_none.mp (hsound n hn),
    by decide +kernel, ?_⟩
  intro s hs
  refine ⟨hzero s hs, ?_⟩
  rintro ⟨-, hpos⟩
  rw [hzero s hs] at hpos
  exact absurd hpos (Nat.lt_irrefl 0)

end SourceAudit.Syntax
