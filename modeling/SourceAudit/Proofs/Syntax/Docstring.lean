import SourceAudit.Proofs.Syntax.Layout
import SourceAudit.Proofs.Text.Trim

/-!
Where docstrings come from. A docstring is the content of a literal that is the only named part of
the first statement, without white space at its ends (`leadingDocstring?_eq_some`,
`trimmed_docstring`). Punctuation in that statement is not looked at: the literal stands alone in it
exactly if there is none (`docstring_lone_iff`), and the tuple of `tupleText` is taken for a
docstring.
-/

namespace SourceAudit.Syntax

/-! ### White space at the ends -/

/-- A text with something in it and without white space at either end. -/
structure Trimmed (s : String) : Prop where
  nonempty : s ≠ ""
  first : ∀ c ∈ s.toList.head?, Text.isBlank c = false
  last : ∀ c ∈ s.toList.getLast?, Text.isBlank c = false

theorem trimmed_trimChars {cs : List Char} (h : Text.trimChars cs ≠ []) :
    Trimmed (String.ofList (Text.trimChars cs)) := by
  refine ⟨?_, ?_, ?_⟩
  · simpa using h
  · intro c hc
    rw [String.toList_ofList] at hc
    exact Text.isBlank_first hc
  · intro c hc
    rw [String.toList_ofList] at hc
    exact Text.isBlank_last hc

/-! ### The first statement -/

theorem isLiteral_of_stringValue? {text : List Char} {n : Concrete} {content : List Char}
    (h : stringValue? text n = some content) : isLiteral n = true := by
  unfold stringValue? at h
  split at h
  · rename_i hkind
    simp [isLiteral, hkind]
  · split at h
    · rename_i hkind
      simp [isLiteral, hkind]
    · cases h

/-- A docstring is the content of the only named part of the first statement. -/
theorem leadingDocstring?_eq_some {text : List Char} {body : Concrete} {doc : String} :
    leadingDocstring? text body = some doc ↔
      ∃ first rest value content, body.parts = first :: rest ∧
        first.kind = "expression_statement" ∧ first.parts = [value] ∧
        stringValue? text value = some content ∧ Text.trimChars content ≠ [] ∧
        doc = String.ofList (Text.trimChars content) := by
  constructor
  · intro h
    unfold leadingDocstring? at h
    split at h
    · cases h
    rename_i first rest hbody
    split at h
    · cases h
    rename_i hkind
    split at h
    · rename_i value hparts
      obtain ⟨content, hcontent, hdoc⟩ := Option.bind_eq_some_iff.mp h
      refine ⟨first, rest, value, content, hbody, not_not.mp hkind, hparts, hcontent, ?_⟩
      simp only [List.isEmpty_iff] at hdoc
      split at hdoc
      · cases hdoc
      · rename_i hne
        cases hdoc
        exact ⟨hne, rfl⟩
    · cases h
  · rintro ⟨first, rest, value, content, hbody, hkind, hparts, hcontent, hne, rfl⟩
    simp [leadingDocstring?, hbody, hkind, hparts, hcontent, hne]

theorem trimmed_docstring {text : List Char} {body : Concrete} {doc : String}
    (h : leadingDocstring? text body = some doc) : Trimmed doc := by
  obtain ⟨-, -, -, content, -, -, -, -, hne, rfl⟩ := leadingDocstring?_eq_some.mp h
  exact trimmed_trimChars hne

/-! ### Literals that stand alone -/

/-- The children of a node that are no trivia, punctuation included. -/
def substance (n : Concrete) : List Concrete := n.children.filter (!·.isTrivia)

theorem parts_eq_filter (n : Concrete) : n.parts = (substance n).filter (·.info.named) := by
  rw [Concrete.parts, Concrete.namedChildren, substance, List.filter_comm]

/-- The first statement of the body is a string literal and nothing else. -/
def BeginsWithLoneLiteral (body : Concrete) : Prop :=
  ∃ first rest value, body.parts = first :: rest ∧ substance first = [value] ∧
    isLiteral value = true

/-- The statement is the literal with the tokens around it, trivia aside. -/
structure LiteralWith (statement value : Concrete) (tokens : List Concrete) : Prop where
  kind : statement.kind = "expression_statement"
  literal : isLiteral value = true
  named : value.info.named = true
  around : ∃ before after, substance statement = before ++ value :: after ∧ tokens = before ++ after
  anonymous : ∀ token ∈ tokens, token.info.named = false

theorem LiteralWith.parts_eq {statement value : Concrete} {tokens : List Concrete}
    (h : LiteralWith statement value tokens) : statement.parts = [value] := by
  obtain ⟨before, after, hsubstance, rfl⟩ := h.around
  obtain ⟨hbefore, hafter⟩ := List.forall_mem_append.mp h.anonymous
  have hnone {l : List Concrete} (hl : ∀ token ∈ l, token.info.named = false) :
      l.filter (·.info.named) = [] := by
    simpa using hl
  rw [parts_eq_filter, hsubstance, List.filter_append,
    List.filter_cons_of_pos (p := fun n : Concrete => n.info.named) h.named, hnone hbefore,
    hnone hafter, List.nil_append]

theorem literalWith_of_parts {statement value : Concrete}
    (hkind : statement.kind = "expression_statement") (hliteral : isLiteral value = true)
    (hparts : statement.parts = [value]) : ∃ tokens, LiteralWith statement value tokens := by
  rw [parts_eq_filter, List.filter_eq_cons_iff] at hparts
  obtain ⟨before, after, hsubstance, hbefore, hnamed, hafter⟩ := hparts
  refine ⟨before ++ after, hkind, hliteral, hnamed, ⟨before, after, hsubstance, rfl⟩, ?_⟩
  rw [List.filter_eq_nil_iff] at hafter
  rw [List.forall_mem_append]
  exact ⟨fun token ht => Bool.eq_false_iff.mpr (hbefore token ht),
    fun token ht => Bool.eq_false_iff.mpr (hafter token ht)⟩

theorem beginsWithLoneLiteral_iff {body first value : Concrete} {rest tokens : List Concrete}
    (hbody : body.parts = first :: rest) (hfirst : LiteralWith first value tokens) :
    BeginsWithLoneLiteral body ↔ tokens = [] := by
  obtain ⟨before, after, hsubstance, rfl⟩ := hfirst.around
  constructor
  · rintro ⟨first', rest', value', hbody', hlone, -⟩
    rw [hbody] at hbody'
    cases hbody'
    rw [hsubstance] at hlone
    have hlen := congrArg List.length hlone
    simp only [List.length_append, List.length_cons, List.length_nil] at hlen
    exact List.eq_nil_of_length_eq_zero (by rw [List.length_append]; omega)
  · intro hnil
    obtain ⟨rfl, rfl⟩ := List.append_eq_nil_iff.mp hnil
    exact ⟨first, rest, value, hbody, hsubstance, hfirst.literal⟩

/-- A docstring comes from a statement that is a literal with tokens around it. The literal stands
alone exactly if there are no tokens, and tokens make no difference: with others in their place, or
with none, the docstring is the same. -/
theorem docstring_lone_iff {text : List Char} {body : Concrete} {doc : String}
    (h : leadingDocstring? text body = some doc) :
    ∃ first rest value tokens, body.parts = first :: rest ∧ LiteralWith first value tokens ∧
      (BeginsWithLoneLiteral body ↔ tokens = []) ∧
      ∀ other first' rest' tokens', other.parts = first' :: rest' →
        LiteralWith first' value tokens' → leadingDocstring? text other = some doc := by
  obtain ⟨first, rest, value, content, hbody, hkind, hparts, hcontent, hdoc⟩ :=
    leadingDocstring?_eq_some.mp h
  obtain ⟨tokens, hfirst⟩ :=
    literalWith_of_parts hkind (isLiteral_of_stringValue? hcontent) hparts
  refine ⟨first, rest, value, tokens, hbody, hfirst, beginsWithLoneLiteral_iff hbody hfirst, ?_⟩
  intro other first' rest' tokens' hother hfirst'
  exact leadingDocstring?_eq_some.mpr
    ⟨first', rest', value, content, hother, hfirst'.kind, hfirst'.parts_eq, hcontent, hdoc⟩

/-- A literal at the beginning of a text. -/
def quotedNode : Concrete :=
  soundNode "string" true none ⟨0, 0, 0⟩ ⟨0, 6, 6⟩ [
    soundNode "string_start" true none ⟨0, 0, 0⟩ ⟨0, 1, 1⟩ [],
    soundNode "string_content" true none ⟨0, 1, 1⟩ ⟨0, 5, 5⟩ [],
    soundNode "string_end" true none ⟨0, 5, 5⟩ ⟨0, 6, 6⟩ []]

def loneText : List Char := "\"text\"\n".toList

/-- The tree of `loneText`: a literal as a statement of its own. -/
def loneTree : Concrete :=
  soundNode "module" true none ⟨0, 0, 0⟩ ⟨1, 0, 7⟩ [
    soundNode "expression_statement" true none ⟨0, 0, 0⟩ ⟨0, 6, 6⟩ [quotedNode]]

def tupleText : List Char := "\"text\",\n".toList

/-- The tree of `tupleText`: a literal and a comma, which make a tuple. -/
def tupleTree : Concrete :=
  soundNode "module" true none ⟨0, 0, 0⟩ ⟨1, 0, 8⟩ [
    soundNode "expression_statement" true none ⟨0, 0, 0⟩ ⟨0, 7, 7⟩ [
      quotedNode, soundNode "," false none ⟨0, 6, 6⟩ ⟨0, 7, 7⟩ []]]

/-- A literal that is a statement of its own has no tokens around it. -/
theorem loneTree_documented :
    leadingDocstring? loneText loneTree = some "text" ∧ BeginsWithLoneLiteral loneTree := by
  have hdoc : leadingDocstring? loneText loneTree = some "text" := by decide +kernel
  obtain ⟨first, rest, value, tokens, hbody, hfirst, hlone, -⟩ := docstring_lone_iff hdoc
  refine ⟨hdoc, hlone.mpr ?_⟩
  have hnamed : ∀ s ∈ loneTree.parts, ∀ n ∈ substance s, n.info.named = true := by decide
  obtain ⟨before, after, hsubstance, htokens⟩ := hfirst.around
  apply List.eq_nil_iff_forall_not_mem.mpr
  intro token htoken
  have hmem : token ∈ substance first := by
    rw [htokens] at htoken
    rw [hsubstance]
    grind
  have htrue := hnamed first (by simp [hbody]) token hmem
  rw [hfirst.anonymous token htoken] at htrue
  cases htrue

/-- The text of a tuple is accepted, and its only element is taken for a docstring although a comma
stands beside it. -/
theorem tuple_documented :
    judge tupleText tupleTree = .ok (lower tupleText tupleTree) ∧
    leadingDocstring? tupleText tupleTree = some "text" ∧ ¬ BeginsWithLoneLiteral tupleTree := by
  refine ⟨judge_of_all (by decide +kernel) (by decide +kernel), by decide +kernel, ?_⟩
  rintro ⟨first, rest, value, hbody, hlone, -⟩
  have htwo : ∀ s ∈ tupleTree.parts, (substance s).length = 2 := by decide
  have hlen := htwo first (by simp [hbody])
  rw [hlone] at hlen
  cases hlen

end SourceAudit.Syntax
