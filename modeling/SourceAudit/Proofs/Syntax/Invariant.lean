import SourceAudit.Proofs.Audit.Findings
import SourceAudit.Proofs.Syntax.Docstring
import SourceAudit.Proofs.Syntax.Lowering

/-!
What holds of every node of a syntax tree. The number of handlers of a `try` statement and the
docstrings are found out on the concrete syntax tree and not from the children of the node;
`lower_invariant` says that they agree with these, and what sorts of children nodes have. So a `try`
statement is reported exactly if none of its children is a handler.
-/

namespace SourceAudit.Syntax

open SourceAudit.Audit (Issue OnePerNode Unhandled emptyHandlerIssue?_eq_some emptyHandlerIssues
  onePerNode_filterMap)
open SourceAudit.Concrete.Cursor (ofRoot)

/-- What a node says of itself agrees with its children. -/
structure WellFormed (n : Node) : Prop where
  handlers : ∀ h, n.kind = .try h → (n.children.filter (·.kind = .exceptHandler)).length = h
  docstring : ∀ s ∈ n.docstring?, Trimmed s
  literal : n.kind.label = "string" ∨ n.kind.label = "concatenated_string" →
    ∀ c ∈ n.children, c.kind.label = "interpolation"
  line_pos : 1 ≤ n.line
  column_pos : 1 ≤ n.column

/-! ### Kinds and their labels -/

@[simp]
theorem kind_lower (text : List Char) (n : Concrete) : (lower text n).kind = kindOf text n := by
  obtain ⟨i, cs⟩ := n
  rw [lower]
  rfl

/-- The labels of the kinds that are told apart. -/
def specialLabels : List String :=
  ["module", "function", "class", "try", "except", "import", "import_from"]

theorem kind_of_label {text : List Char} {n : Concrete} {tag : String}
    (h : (kindOf text n).label = tag) (htag : tag ∉ specialLabels) : n.kind = tag := by
  have hcorresponds := kindOf_corresponds text n
  cases hkind : kindOf text n with
  | other name =>
    rw [hkind] at hcorresponds h
    exact hcorresponds.1.symm.trans h
  | module | function | «class» | «try» | exceptHandler | imports | importsFrom =>
    rw [hkind] at h
    exact absurd h.symm (fun heq => htag (by simp [heq, Kind.label, specialLabels]))

theorem label_kindOf_interpolation {text : List Char} {n : Concrete}
    (h : n.kind = "interpolation") : (kindOf text n).label = "interpolation" := by
  simp [kindOf, h, Kind.label]

theorem kindOf_eq_exceptHandler {text : List Char} {n : Concrete} :
    kindOf text n = .exceptHandler ↔ isHandler n = true := by
  unfold kindOf
  split <;> simp_all [isHandler]

theorem kindOf_eq_try {text : List Char} {n : Concrete} {h : Nat} (hn : kindOf text n = .try h) :
    isLiteral n = false ∧ h = (n.namedChildren.filter isHandler).length := by
  unfold kindOf at hn
  split at hn <;> simp_all [isLiteral]

/-- The docstring of a node is that of some body. -/
theorem docstring?_lower {text : List Char} {n : Concrete} {s : String}
    (h : (lower text n).docstring? = some s) : ∃ body, leadingDocstring? text body = some s := by
  have hcorresponds := kindOf_corresponds text n
  rw [Node.docstring?, kind_lower] at h
  cases hkind : kindOf text n with
  | module d =>
    rw [hkind] at h hcorresponds
    have hmodule : n.kind = "module" := hcorresponds
    simp only [kindOf, hmodule, Kind.module.injEq] at hkind
    exact ⟨n, hkind.trans h⟩
  | function name isAsync d =>
    rw [hkind] at h hcorresponds
    have hfunction : n.kind = "function_definition" := hcorresponds
    simp only [kindOf, hfunction, Kind.function.injEq] at hkind
    obtain ⟨body, -, hbody⟩ := Option.bind_eq_some_iff.mp (hkind.2.2.trans h)
    exact ⟨body, hbody⟩
  | «class» name d =>
    rw [hkind] at h hcorresponds
    have hclass : n.kind = "class_definition" := hcorresponds
    simp only [kindOf, hclass, Kind.class.injEq] at hkind
    obtain ⟨body, -, hbody⟩ := Option.bind_eq_some_iff.mp (hkind.2.trans h)
    exact ⟨body, hbody⟩
  | «try» | exceptHandler | imports | importsFrom | other =>
    rw [hkind] at h
    cases h

/-! ### Children -/

theorem children_lower_of_plain {text : List Char} {n : Concrete} (h : isLiteral n = false) :
    (lower text n).children = n.parts.map (lower text) := by
  obtain ⟨i, cs⟩ := n
  have hchildren : (lower text (.node i cs)).children = lowerParts text cs := by
    rw [lower, h]
    rfl
  rw [hchildren, lowerParts_eq, Concrete.parts, Concrete.namedChildren, List.filter_filter]
  simp only [Concrete.children, Bool.and_comm]

/-- A handler is no trivia, so it is kept. -/
theorem filter_isHandler_parts (n : Concrete) :
    n.parts.filter isHandler = n.namedChildren.filter isHandler := by
  rw [Concrete.parts, List.filter_filter]
  apply List.filter_congr
  intro c _
  cases hhandler : isHandler c with
  | false => rfl
  | true =>
    simp only [isHandler, Bool.or_eq_true, decide_eq_true_eq] at hhandler
    rcases hhandler with hkind | hkind
    · simp [Concrete.isTrivia, hkind]
    · simp [Concrete.isTrivia, hkind]

theorem handlers_lower {text : List Char} {n : Concrete} {h : Nat}
    (hn : kindOf text n = .try h) :
    ((lower text n).children.filter (·.kind = .exceptHandler)).length = h := by
  obtain ⟨hplain, rfl⟩ := kindOf_eq_try hn
  rw [children_lower_of_plain hplain, List.filter_map, List.length_map, ← filter_isHandler_parts]
  congr 1
  apply List.filter_congr
  intro c _
  simp [kindOf_eq_exceptHandler]

theorem mem_children_lower {text : List Char} {n : Concrete} {c : Node}
    (h : c ∈ (lower text n).children) :
    ∃ d, c = lower text d ∧ d.isTrivia = false ∧
      (isLiteral n = true → d.kind = "interpolation") := by
  have hlower : (lower text n).children =
      (keptChildren (ofRoot n)).map fun d => lower text d.focus := by
    have heq := congrArg Node.children (lower_eq text (ofRoot n))
    exact heq
  rw [hlower, List.mem_map] at h
  obtain ⟨d, hd, rfl⟩ := h
  refine ⟨d.focus, rfl, ?_⟩
  rcases keptChildren_cases (ofRoot n) with ⟨-, hkept⟩ | ⟨hplain, hkept⟩
  · rw [hkept] at hd
    obtain ⟨-, -, -, -, hkind⟩ := through_of_mem_interpolations hd
    exact ⟨by simp [Concrete.isTrivia, hkind], fun _ => hkind⟩
  · rw [hkept, partsOf, List.mem_filter] at hd
    simp only [Bool.and_eq_true, Bool.not_eq_true'] at hd
    refine ⟨hd.2.2, ?_⟩
    intro hliteral
    exact absurd hliteral (Bool.eq_false_iff.mp hplain)

/-! ### All nodes -/

theorem wellFormed_lower (text : List Char) (n : Concrete) : WellFormed (lower text n) := by
  constructor
  case handlers =>
    intro h hkind
    rw [kind_lower] at hkind
    exact handlers_lower hkind
  case docstring =>
    intro s hs
    obtain ⟨body, hbody⟩ := docstring?_lower hs
    exact trimmed_docstring hbody
  case literal =>
    intro hlabel c hc
    obtain ⟨d, rfl, -, hinterpolation⟩ := mem_children_lower hc
    rw [kind_lower] at hlabel ⊢
    apply label_kindOf_interpolation
    apply hinterpolation
    rcases hlabel with hlabel | hlabel
    · simp [isLiteral, kind_of_label hlabel (by decide)]
    · simp [isLiteral, kind_of_label hlabel (by decide)]
  case line_pos =>
    obtain ⟨i, cs⟩ := n
    rw [lower]
    exact Nat.succ_pos _
  case column_pos =>
    obtain ⟨i, cs⟩ := n
    rw [lower]
    exact Nat.succ_pos _

/-- A node of a syntax tree is that of the root or of some node that is no trivia. -/
theorem at?_lower {text : List Char} {t : Concrete} {p : List Nat} {n : Node}
    (h : (lower text t).at? p = some n) :
    ∃ d, n = lower text d ∧ (p = [] ∧ d = t ∨ d.isTrivia = false) := by
  induction p generalizing t with
  | nil =>
    cases h
    exact ⟨t, rfl, .inl ⟨rfl, rfl⟩⟩
  | cons i p ih =>
    rw [Node.at?, Option.bind_eq_some_iff] at h
    obtain ⟨c, hc, hn⟩ := h
    obtain ⟨d, rfl, htrivia, -⟩ := mem_children_lower (List.mem_of_getElem? hc)
    obtain ⟨e, rfl, ⟨-, rfl⟩ | hbelow⟩ := ih hn
    · exact ⟨e, rfl, .inr htrivia⟩
    · exact ⟨e, rfl, .inr hbelow⟩

theorem label_ne_trivia {text : List Char} {n : Concrete} (h : n.isTrivia = false) :
    (kindOf text n).label ≠ "comment" ∧ (kindOf text n).label ≠ "line_continuation" := by
  simp only [Concrete.isTrivia, Bool.or_eq_false_iff, beq_eq_false_iff_ne] at h
  exact ⟨fun hlabel => h.1 (kind_of_label hlabel (by decide)),
    fun hlabel => h.2 (kind_of_label hlabel (by decide))⟩

/-! ### Statements without a handler -/

/-- The finding about a `try` statement without a handler among its children. -/
inductive Handlerless (n : Node) : Issue → Prop
  | intro {h : Nat} (htry : n.kind = .try h) (hnone : ∀ c ∈ n.children, c.kind ≠ .exceptHandler) :
      Handlerless n
        { kind := .emptyExceptHandler, message := "Try block without any except handler"
          location := some ⟨n.line, n.column⟩ }

/-- The number of handlers is zero exactly if no child is one. -/
theorem WellFormed.unhandled_iff {n : Node} (hn : WellFormed n) {i : Issue} :
    Unhandled n i ↔ Handlerless n i := by
  constructor
  · rintro ⟨hkind⟩
    refine ⟨hkind, ?_⟩
    have hnone := List.eq_nil_of_length_eq_zero (hn.handlers 0 hkind)
    simpa [List.filter_eq_nil_iff] using hnone
  · rintro ⟨hkind, hnone⟩
    have hzero : (n.children.filter (·.kind = .exceptHandler)).length = 0 := by
      simpa [List.filter_eq_nil_iff] using hnone
    rw [hn.handlers _ hkind] at hzero
    subst hzero
    exact ⟨hkind⟩

/-- What is said of the findings about nodes can be said in other words, if these mean the same for
the nodes of the tree. -/
theorem onePerNode_congr {tree : Node} {A B : Node → Issue → Prop} {issues : List Issue}
    (h : OnePerNode tree A issues)
    (hiff : ∀ p n, tree.at? p = some n → ∀ i, A n i ↔ B n i) : OnePerNode tree B issues := by
  obtain ⟨found, hplaces, hmem, hfound⟩ := h
  refine ⟨found, hplaces, ?_, ?_⟩
  · intro p n
    rw [hmem]
    exact and_congr_right fun hn => exists_congr (hiff p n hn)
  · rw [List.forall₂_iff_zip] at hfound ⊢
    refine ⟨hfound.1, ?_⟩
    intro q i hq
    have hplace := ((hmem q.1 q.2).mp (List.of_mem_zip hq).1).1
    exact (hiff q.1 q.2 hplace i).mp (hfound.2 hq)

/-- Every node of a syntax tree says of itself what its children show, no comment or continuation
stands below the root, and the `try` statements that are reported are those without a handler among
their children. -/
theorem lower_invariant (text : List Char) (t : Concrete) :
    (∀ p n, (lower text t).at? p = some n → WellFormed n ∧
      (p ≠ [] → n.kind.label ≠ "comment" ∧ n.kind.label ≠ "line_continuation")) ∧
    OnePerNode (lower text t) Handlerless (emptyHandlerIssues (lower text t)) := by
  have hnodes : ∀ p n, (lower text t).at? p = some n → WellFormed n := by
    intro p n hn
    obtain ⟨d, rfl, -⟩ := at?_lower hn
    exact wellFormed_lower text d
  refine ⟨?_, ?_⟩
  · intro p n hn
    refine ⟨hnodes p n hn, ?_⟩
    intro hbelow
    obtain ⟨d, rfl, ⟨hroot, -⟩ | htrivia⟩ := at?_lower hn
    · exact absurd hroot hbelow
    · rw [kind_lower]
      exact label_ne_trivia htrivia
  · refine onePerNode_congr (onePerNode_filterMap fun n i => emptyHandlerIssue?_eq_some) ?_
    intro p n hn i
    exact (hnodes p n hn).unhandled_iff

end SourceAudit.Syntax
