import SourceAudit.Proofs.Audit.Findings

/-!
Functions that are too long. The length of a function reaches to the last line on which a node of it
starts (`isLastLine_maxLine`), so it is a difference that never falls below zero. The findings are
about the functions whose length exceeds the threshold, one each (`reports_longPlaces`); a greater
threshold only leaves findings out (`longFunctionIssues_eq_filter`); and where lines never go up on
the way down a tree, a function is at least as long as those inside it (`length_le_of_at?`).
-/

namespace SourceAudit.Audit

open SourceAudit.Syntax (Node)
open SourceAudit.Syntax.Node (at?_append map_snd_places maxLine_spec mem_places places_increasing)

/-! ### The last line -/

/-- The largest line on which a node of the tree starts, its root included. -/
structure IsLastLine (n : Node) (line : Nat) : Prop where
  reached : ∃ p m, n.at? p = some m ∧ m.line = line
  bound : ∀ p m, n.at? p = some m → m.line ≤ line

theorem isLastLine_maxLine (n : Node) : IsLastLine n n.maxLine := by
  obtain ⟨p, m, hm, hline, hbound⟩ := maxLine_spec n
  rw [hline] at hbound
  exact ⟨⟨p, m, hm, hline⟩, hbound⟩

theorem IsLastLine.eq_maxLine {n : Node} {line : Nat} (h : IsLastLine n line) :
    line = n.maxLine := by
  obtain ⟨p, m, hm, rfl⟩ := h.reached
  exact (maxLine_eq hm h.bound).symm

theorem IsLastLine.line_le {n : Node} {line : Nat} (h : IsLastLine n line) : n.line ≤ line :=
  h.bound [] n rfl

/-- A node inside another one ends no later. -/
theorem maxLine_le_of_at? {g f : Node} {q : List Nat} (h : g.at? q = some f) :
    f.maxLine ≤ g.maxLine := by
  obtain ⟨⟨r, m, hm, hline⟩, -⟩ := isLastLine_maxLine f
  rw [← hline]
  apply (isLastLine_maxLine g).bound (q ++ r) m
  rw [at?_append, h]
  exact hm

/-! ### Places of the findings -/

/-- The places of the functions whose length exceeds the threshold, with their nodes. -/
def longPlaces (threshold : Nat) (tree : Node) : List (List Nat × Node) :=
  tree.places.filter fun q => q.2.isFunction && threshold < (spanOf q.2).length

theorem mem_longPlaces {threshold : Nat} {tree f : Node} {p : List Nat} :
    (p, f) ∈ longPlaces threshold tree ↔
      tree.at? p = some f ∧ f.isFunction = true ∧ threshold < f.maxLine - f.line := by
  rw [longPlaces, List.mem_filter, mem_places, Bool.and_eq_true, decide_eq_true_eq]
  rfl

/-- The findings are about the functions at these places: the places come in pre-order, they are
those of all functions that start more than `threshold` lines above their last line, and each has
its own finding. -/
structure Reports (threshold : Nat) (tree : Node) (found : List (List Nat × Node)) : Prop where
  inPreorder : found.Pairwise fun a b => a.1 < b.1
  exactly : ∀ p f, (p, f) ∈ found ↔
    tree.at? p = some f ∧ f.isFunction = true ∧
      ∃ last, IsLastLine f last ∧ f.line ≤ last ∧ threshold < last - f.line
  findings : List.Forall₂ (fun q i => TooLong threshold q.2 i) found
    (longFunctionIssues threshold tree)

/-- The finding about a node, which only functions can have. -/
def lengthIssue? (threshold : Nat) (n : Node) : Option Issue :=
  if n.isFunction then longFunctionIssue? threshold n else none

theorem longFunctionIssues_eq (threshold : Nat) (tree : Node) :
    longFunctionIssues threshold tree =
      (tree.places.map Prod.snd).filterMap (lengthIssue? threshold) := by
  rw [longFunctionIssues, Node.functions, List.filterMap_filter, map_snd_places]
  rfl

theorem isSome_lengthIssue? (threshold : Nat) (n : Node) :
    (lengthIssue? threshold n).isSome =
      (n.isFunction && decide (threshold < (spanOf n).length)) := by
  unfold lengthIssue? longFunctionIssue?
  cases n.isFunction with
  | false => rfl
  | true =>
    by_cases hlong : (spanOf n).length ≤ threshold
    · simp [hlong]
    · simp [hlong, Nat.lt_of_not_le hlong]

theorem reports_longPlaces (threshold : Nat) (tree : Node) :
    Reports threshold tree (longPlaces threshold tree) where
  inPreorder := (places_increasing tree).filter _
  exactly := by
    intro p f
    rw [mem_longPlaces]
    constructor
    · rintro ⟨hf, hfunction, hlong⟩
      have hlast := isLastLine_maxLine f
      exact ⟨hf, hfunction, f.maxLine, hlast, hlast.line_le, hlong⟩
    · rintro ⟨hf, hfunction, last, hlast, -, hlong⟩
      rw [hlast.eq_maxLine] at hlong
      exact ⟨hf, hfunction, hlong⟩
  findings := by
    have hplaces : longPlaces threshold tree =
        tree.places.filter fun q => (lengthIssue? threshold q.2).isSome := by
      simp only [longPlaces, isSome_lengthIssue?]
    rw [hplaces, longFunctionIssues_eq]
    refine (forall₂_filterMap (lengthIssue? threshold) tree.places).imp ?_
    intro q i hq
    exact longFunctionIssue?_eq_some.mp hq

/-! ### Other thresholds -/

/-- A finding about more lines than the threshold allows. -/
def Issue.exceeds (threshold : Nat) (i : Issue) : Bool := i.span.any (threshold < ·.length)

theorem lengthIssue?_filter {k k' : Nat} (h : k ≤ k') (n : Node) :
    (lengthIssue? k n).filter (Issue.exceeds k') = lengthIssue? k' n := by
  unfold lengthIssue? longFunctionIssue?
  cases n.isFunction with
  | false => rfl
  | true =>
    by_cases hlong : (spanOf n).length ≤ k'
    · by_cases hshort : (spanOf n).length ≤ k
      · simp [hlong, hshort]
      · simp [hlong, hshort, Issue.exceeds]
    · have hshort : ¬ (spanOf n).length ≤ k := by omega
      simp [hlong, hshort, Issue.exceeds, Nat.lt_of_not_le hlong]

/-- The findings for a greater threshold are those for a smaller one that exceed it. -/
theorem longFunctionIssues_eq_filter {k k' : Nat} (h : k ≤ k') (tree : Node) :
    longFunctionIssues k' tree = (longFunctionIssues k tree).filter (Issue.exceeds k') := by
  simp only [longFunctionIssues_eq, List.filter_filterMap, lengthIssue?_filter h]

theorem longPlaces_eq_filter {k k' : Nat} (h : k ≤ k') (tree : Node) :
    longPlaces k' tree =
      (longPlaces k tree).filter fun q => decide (k' < (spanOf q.2).length) := by
  rw [longPlaces, longPlaces, List.filter_filter]
  apply List.filter_congr
  intro q _
  rw [Bool.eq_iff_iff]
  simp only [Bool.and_eq_true, decide_eq_true_eq]
  constructor
  · rintro ⟨hfunction, hlong⟩
    exact ⟨hlong, hfunction, by omega⟩
  · rintro ⟨hlong, hfunction, -⟩
    exact ⟨hfunction, hlong⟩

/-! ### Functions around functions -/

/-- No node starts on a line above that of a node around it. -/
def LinesGoDown (tree : Node) : Prop :=
  ∀ p q n m, tree.at? p = some n → n.at? q = some m → n.line ≤ m.line

theorem length_le_of_at? {tree g f : Node} {p q : List Nat} (hdown : LinesGoDown tree)
    (hg : tree.at? p = some g) (hf : g.at? q = some f) :
    f.maxLine - f.line ≤ g.maxLine - g.line := by
  have hstart := hdown p q g f hg hf
  have hend := maxLine_le_of_at? hf
  omega

theorem around_mem_longPlaces {tree g f : Node} {p q : List Nat} {threshold : Nat}
    (hdown : LinesGoDown tree) (hg : tree.at? p = some g) (hfunction : g.isFunction = true)
    (hf : (p ++ q, f) ∈ longPlaces threshold tree) : (p, g) ∈ longPlaces threshold tree := by
  obtain ⟨hat, -, hlong⟩ := mem_longPlaces.mp hf
  rw [at?_append, hg] at hat
  have hle := length_le_of_at? hdown hg hat
  exact mem_longPlaces.mpr ⟨hg, hfunction, by omega⟩

/-- The findings for a threshold are about the functions that start more than that many lines above
their last line, in pre-order and one each; no function starts below its last line, in whatever
order the lines of the tree are. With a greater threshold the findings are some of those for a
smaller one. Where lines go down the tree, each function around a reported one is reported. -/
theorem long_functions (tree : Node) :
    (∀ k, Reports k tree (longPlaces k tree)) ∧
    (∀ p f, tree.at? p = some f → f.line ≤ f.maxLine) ∧
    (∀ k k', k ≤ k' →
      (longFunctionIssues k' tree).Sublist (longFunctionIssues k tree) ∧
      (longPlaces k' tree).Sublist (longPlaces k tree)) ∧
    (LinesGoDown tree → ∀ k p q g f, tree.at? p = some g → g.isFunction = true →
      (p ++ q, f) ∈ longPlaces k tree → (p, g) ∈ longPlaces k tree) := by
  refine ⟨fun k => reports_longPlaces k tree, ?_, ?_, ?_⟩
  · intro p f _
    exact (isLastLine_maxLine f).line_le
  · intro k k' h
    rw [longFunctionIssues_eq_filter h, longPlaces_eq_filter h]
    exact ⟨List.filter_sublist, List.filter_sublist⟩
  · intro hdown k p q g f hg hfunction hf
    exact around_mem_longPlaces hdown hg hfunction hf

/-- A function of two lines below its own. -/
def innerFunction : Node :=
  .mk (.function "inner" false none) 2 5 [.mk (.other "pass_statement") 3 9 [],
    .mk (.other "pass_statement") 4 9 []]

/-- A function with `innerFunction` in it. -/
def outerFunction : Node := .mk (.function "outer" false none) 1 1 [innerFunction]

/-- The inner function of a module is long for a threshold of one, so the outer one is, too; for a
threshold of two it is left out. -/
theorem outerFunction_reported :
    ([0, 0], innerFunction) ∈ longPlaces 1 (.mk (.module none) 1 1 [outerFunction]) ∧
    ([0], outerFunction) ∈ longPlaces 1 (.mk (.module none) 1 1 [outerFunction]) ∧
    ([0, 0], innerFunction) ∉ longPlaces 2 (.mk (.module none) 1 1 [outerFunction]) ∧
    (longPlaces 2 (.mk (.module none) 1 1 [outerFunction])).Sublist
      (longPlaces 1 (.mk (.module none) 1 1 [outerFunction])) := by
  have hlines : ∀ a ∈ (Node.mk (.module none) 1 1 [outerFunction]).places,
      ∀ b ∈ a.2.places, a.2.line ≤ b.2.line := by decide
  have hdown : LinesGoDown (.mk (.module none) 1 1 [outerFunction]) :=
    fun p q n m hn hm => hlines (p, n) (mem_places.mpr hn) (q, m) (mem_places.mpr hm)
  have hinner : ([0, 0], innerFunction) ∈
      longPlaces 1 (.mk (.module none) 1 1 [outerFunction]) :=
    mem_longPlaces.mpr ⟨rfl, rfl, by decide +kernel⟩
  obtain ⟨-, -, hgreater, haround⟩ := long_functions (.mk (.module none) 1 1 [outerFunction])
  refine ⟨hinner, haround hdown 1 [0] [0] _ _ rfl rfl hinner, ?_, (hgreater 1 2 (by decide)).2⟩
  intro hlong
  exact absurd (mem_longPlaces.mp hlong).2.2 (by decide +kernel)

end SourceAudit.Audit
