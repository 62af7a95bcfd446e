import SourceAudit.Proofs.Syntax.Docstring
import SourceAudit.Proofs.Syntax.Slice

/-!
What literals say. A literal is written as flags, a delimiter, a body and the delimiter again
(`Literal`). The delimiters are cut off by their width in bytes; both cuts lie in the text and
between characters (`Literal.cutInside`), so the body is what is left (`literalBody_quoted`) and the
content is the body, unescaped unless the literal is raw (`literalContent?_text`). A docstring is
the trimmed content of the literals of the first statement (`docstring_content`).
-/

namespace SourceAudit.Syntax

/-! ### Literals as they are written -/

/-- One or three quotes of a kind. -/
structure Delimiter where
  quote : Char
  triple : Bool
  quote_isQuote : isQuote quote = true

def Delimiter.text (d : Delimiter) : List Char :=
  if d.triple then [d.quote, d.quote, d.quote] else [d.quote]

/-- A literal as it is written. -/
structure Literal where
  /-- The letters in front of the first quote. -/
  flags : List Char
  delimiter : Delimiter
  body : List Char
  flags_plain : ∀ c ∈ flags, isQuote c = false
  /-- With the quote repeated the delimiter would be another one, or the literal at its end. -/
  body_apart : delimiter.triple = false → body.head? ≠ some delimiter.quote

namespace Literal

/-- The literal from its first quote on. -/
def quoted (l : Literal) : List Char := l.delimiter.text ++ (l.body ++ l.delimiter.text)

def text (l : Literal) : List Char := l.flags ++ l.quoted

/-- Format strings and byte strings, which say nothing. -/
def IsMute (l : Literal) : Prop := ∃ c ∈ l.flags, c ∈ ['f', 'F', 'b', 'B']

def IsRaw (l : Literal) : Prop := ∃ c ∈ l.flags, c ∈ ['r', 'R']

-- The flags are searched, not all characters that there are.
instance (l : Literal) : Decidable l.IsMute :=
  List.decidableBEx (· ∈ ['f', 'F', 'b', 'B']) l.flags

instance (l : Literal) : Decidable l.IsRaw := List.decidableBEx (· ∈ ['r', 'R']) l.flags

/-- What a literal says that is not mute. -/
def content (l : Literal) : List Char := if l.IsRaw then l.body else unescape l.body

end Literal

theorem Delimiter.text_ne_nil (d : Delimiter) : d.text ≠ [] := by
  unfold text
  split <;> simp

theorem Delimiter.head_text {d : Delimiter} {c : Char} {cs : List Char} (h : d.text = c :: cs) :
    isQuote c = true := by
  unfold text at h
  split at h <;> cases h <;> exact d.quote_isQuote

/-- A quote takes one byte. -/
theorem utf8Size_of_isQuote {c : Char} (h : isQuote c = true) : c.utf8Size = 1 := by
  simp only [isQuote, Bool.or_eq_true, decide_eq_true_eq] at h
  rcases h with rfl | rfl <;> decide

theorem Delimiter.byteSize_text (d : Delimiter) :
    byteSize d.text = if d.triple then 3 else 1 := by
  have hquote := utf8Size_of_isQuote d.quote_isQuote
  unfold text
  split <;> simp [hquote]

/-! ### Cutting the delimiters off -/

/-- Width of the delimiter that a literal seems to begin with. -/
def delimiterWidth (quoted : List Char) : Nat := if startsTriple quoted then 3 else 1

theorem literalBody_eq (quoted : List Char) :
    literalBody quoted =
      if byteSize quoted < 2 * delimiterWidth quoted then []
      else
        sliceFrom 0 (delimiterWidth quoted) (byteSize quoted - delimiterWidth quoted) quoted :=
  rfl

/-- The slice between the delimiters is taken, its ends are in the text, in this order, and neither
of them is inside a character. -/
structure CutInside (quoted : List Char) : Prop where
  slice : literalBody quoted =
    sliceFrom 0 (delimiterWidth quoted) (byteSize quoted - delimiterWidth quoted) quoted
  ordered : delimiterWidth quoted ≤ byteSize quoted - delimiterWidth quoted
  start : OnBoundary quoted (delimiterWidth quoted)
  stop : OnBoundary quoted (byteSize quoted - delimiterWidth quoted)

namespace Literal

variable (l : Literal)

/-- The first characters of a literal tell its delimiter. -/
theorem startsTriple_quoted : startsTriple l.quoted = l.delimiter.triple := by
  unfold quoted Delimiter.text
  cases htriple : l.delimiter.triple with
  | true => simp [startsTriple, l.delimiter.quote_isQuote]
  | false =>
    have hapart := l.body_apart htriple
    cases hbody : l.body with
    | nil => simp [startsTriple]
    | cons c cs =>
      have hne : l.delimiter.quote ≠ c := fun heq => hapart (by rw [hbody, heq]; rfl)
      cases cs with
      | nil => simp [startsTriple, hne]
      | cons d cs => simp [startsTriple, hne]

theorem delimiterWidth_quoted : delimiterWidth l.quoted = byteSize l.delimiter.text := by
  rw [delimiterWidth, startsTriple_quoted, Delimiter.byteSize_text]

theorem byteSize_quoted :
    byteSize l.quoted = 2 * byteSize l.delimiter.text + byteSize l.body := by
  simp only [quoted, byteSize_append]
  omega

theorem literalBody_slice :
    literalBody l.quoted =
      sliceFrom 0 (delimiterWidth l.quoted) (byteSize l.quoted - delimiterWidth l.quoted)
        l.quoted := by
  have hlong : ¬ byteSize l.quoted < 2 * delimiterWidth l.quoted := by
    rw [byteSize_quoted, delimiterWidth_quoted]
    omega
  rw [literalBody_eq, if_neg hlong]

theorem cutInside : CutInside l.quoted where
  slice := l.literalBody_slice
  ordered := by
    rw [byteSize_quoted, delimiterWidth_quoted]
    omega
  start := ⟨_, _, rfl, l.delimiterWidth_quoted.symm⟩
  stop := by
    refine ⟨l.delimiter.text ++ l.body, l.delimiter.text, by simp [quoted], ?_⟩
    rw [byteSize_append, byteSize_quoted, delimiterWidth_quoted]
    omega

/-- What is left between the delimiters is the body. -/
theorem literalBody_quoted : literalBody l.quoted = l.body := by
  have hstop : byteSize l.quoted - delimiterWidth l.quoted =
      0 + byteSize l.delimiter.text + byteSize l.body := by
    rw [byteSize_quoted, delimiterWidth_quoted]
    omega
  have hstart : delimiterWidth l.quoted = 0 + byteSize l.delimiter.text := by
    rw [delimiterWidth_quoted, Nat.zero_add]
  rw [literalBody_slice, hstop, hstart]
  exact sliceFrom_between 0 l.delimiter.text l.body l.delimiter.text

/-! ### Content -/

theorem quoted_eq_cons : ∃ c cs, l.quoted = c :: cs ∧ isQuote c = true := by
  cases htext : l.delimiter.text with
  | nil => exact absurd htext l.delimiter.text_ne_nil
  | cons c cs =>
    refine ⟨c, cs ++ (l.body ++ l.delimiter.text), ?_, Delimiter.head_text htext⟩
    rw [quoted, ← List.cons_append, ← htext]

/-- The flags go up to the delimiter. -/
theorem stops_quoted : Text.Stops (!isQuote ·) l.quoted := by
  obtain ⟨c, cs, hquoted, hc⟩ := l.quoted_eq_cons
  rw [hquoted]
  exact Text.stops_cons (by simp [hc]) cs

theorem takeWhile_text : l.text.takeWhile (!isQuote ·) = l.flags :=
  Text.takeWhile_run (by simpa using l.flags_plain) l.stops_quoted

theorem dropWhile_text : l.text.dropWhile (!isQuote ·) = l.quoted :=
  Text.dropWhile_run (by simpa using l.flags_plain) l.stops_quoted

/-- A mute literal has no content; any other has its body, unescaped unless it is raw. -/
theorem literalContent?_text :
    literalContent? l.text = if l.IsMute then none else some l.content := by
  obtain ⟨c, cs, hquoted, hc⟩ := l.quoted_eq_cons
  have hany : l.text.any isQuote = true :=
    List.any_eq_true.mpr ⟨c, by simp [text, hquoted], hc⟩
  have hmute : (l.flags.any fun c => c = 'f' || c = 'F' || c = 'b' || c = 'B') =
      decide l.IsMute := by
    rw [Bool.eq_iff_iff]
    simp [IsMute, or_assoc]
  have hraw : (l.flags.any fun c => c = 'r' || c = 'R') = decide l.IsRaw := by
    rw [Bool.eq_iff_iff]
    simp [IsRaw]
  simp only [literalContent?, hany, takeWhile_text, dropWhile_text, hmute, hraw, decide_eq_true_eq,
    literalBody_quoted, content, Bool.not_true, Bool.false_eq_true, if_false, apply_ite some]

end Literal

/-- The literals that a node is written with: one, or those of an implicit concatenation. -/
inductive WrittenAs (text : List Char) (value : Concrete) : List Literal → Prop
  | single {l : Literal} (hkind : value.kind = "string") (htext : textOf text value = l.text) :
      WrittenAs text value [l]
  | concatenation {ls : List Literal} (hkind : value.kind = "concatenated_string")
      (htexts : (value.namedChildren.filter fun c => c.kind = "string").map (textOf text) =
        ls.map Literal.text) :
      WrittenAs text value ls

theorem joinedContent?_literals {text : List Char} {ns : List Concrete} {ls : List Literal}
    (h : ns.map (textOf text) = ls.map Literal.text) :
    joinedContent? text ns =
      if ∃ l ∈ ls, l.IsMute then none else some (ls.flatMap Literal.content) := by
  induction ns generalizing ls with
  | nil =>
    obtain rfl : ls = [] := by simpa using h.symm
    simp [joinedContent?]
  | cons n ns ih =>
    cases ls with
    | nil => cases h
    | cons l ls =>
      obtain ⟨hfirst, hrest⟩ := List.cons_eq_cons.mp h
      rw [joinedContent?, hfirst, l.literalContent?_text, ih hrest]
      by_cases hmute : l.IsMute
      · simp [hmute]
      · by_cases hlater : ∃ l ∈ ls, l.IsMute
        · simp [hmute, hlater]
        · simp [hmute, hlater]

/-- A node says what its literals say, if none of them is mute. -/
theorem WrittenAs.stringValue?_eq {text : List Char} {value : Concrete} {ls : List Literal}
    (h : WrittenAs text value ls) :
    stringValue? text value =
      if ∃ l ∈ ls, l.IsMute then none else some (ls.flatMap Literal.content) := by
  cases h with
  | single hkind htext => simp [stringValue?, hkind, htext, Literal.literalContent?_text]
  | concatenation hkind htexts => simp [stringValue?, hkind, joinedContent?_literals htexts]

/-! ### Trimming -/

/-- The text is what is left of the characters without the white space at their ends. -/
def Trims (content : List Char) (doc : String) : Prop :=
  Trimmed doc ∧ ∃ before after, content = before ++ (doc.toList ++ after) ∧
    (∀ c ∈ before, Text.isBlank c = true) ∧ ∀ c ∈ after, Text.isBlank c = true

theorem trims_iff {content : List Char} {doc : String} :
    Trims content doc ↔
      Text.trimChars content ≠ [] ∧ doc = String.ofList (Text.trimChars content) := by
  constructor
  · rintro ⟨⟨hne, hfirst, hlast⟩, before, after, rfl, hbefore, hafter⟩
    have hnil : doc.toList ≠ [] := by simpa using hne
    rw [Text.trimChars_between hnil hfirst hlast hbefore hafter, String.ofList_toList]
    exact ⟨hnil, rfl⟩
  · rintro ⟨hne, rfl⟩
    refine ⟨trimmed_trimChars hne, ?_⟩
    rw [String.toList_ofList]
    exact Text.exists_blanks_around content

/-- What is left of the characters, unless all of them are white space. -/
def trimmed? (content : List Char) : Option String :=
  if Text.trimChars content = [] then none else some (String.ofList (Text.trimChars content))

theorem trimmed?_eq_some {content : List Char} {doc : String} :
    trimmed? content = some doc ↔ Trims content doc := by
  rw [trims_iff, trimmed?]
  constructor
  · intro h
    split at h
    · cases h
    · rename_i hne
      cases h
      exact ⟨hne, rfl⟩
  · rintro ⟨hne, rfl⟩
    rw [if_neg hne]

theorem trimmed?_eq_none {content : List Char} :
    trimmed? content = none ↔ ∀ c ∈ content, Text.isBlank c = true := by
  rw [← Text.trimChars_eq_nil, trimmed?]
  simp

/-! ### Docstrings -/

theorem leadingDocstring?_literals {text : List Char} {body first value : Concrete}
    {rest : List Concrete} {literals : List Literal} (hbody : body.parts = first :: rest)
    (hkind : first.kind = "expression_statement") (hparts : first.parts = [value])
    (hwritten : WrittenAs text value literals) :
    leadingDocstring? text body =
      if ∃ l ∈ literals, l.IsMute then none else trimmed? (literals.flatMap Literal.content) := by
  have hvalue := hwritten.stringValue?_eq
  by_cases hmute : ∃ l ∈ literals, l.IsMute
  · rw [if_pos hmute] at hvalue ⊢
    simp [leadingDocstring?, hbody, hkind, hparts, hvalue]
  · rw [if_neg hmute] at hvalue ⊢
    simp [leadingDocstring?, hbody, hkind, hparts, hvalue, trimmed?]

/-- If the first statement of a body is an expression statement whose only named part is written as
literals, none of which is mute, then the docstring is what they say one after the other, trimmed;
it is absent if all of that is white space, or if one of the literals is mute. The delimiters of
each literal are cut off inside the text and between its characters. After any other first statement
and in an empty body there is no docstring. -/
theorem docstring_content (text : List Char) (body : Concrete) :
    (∀ first rest value literals, body.parts = first :: rest →
      first.kind = "expression_statement" → first.parts = [value] →
      WrittenAs text value literals →
        ((∃ l ∈ literals, l.IsMute) → leadingDocstring? text body = none) ∧
        ((∀ l ∈ literals, ¬ l.IsMute) →
          (∀ doc, leadingDocstring? text body = some doc ↔
            Trims (literals.flatMap Literal.content) doc) ∧
          (leadingDocstring? text body = none ↔
            ∀ c ∈ literals.flatMap Literal.content, Text.isBlank c = true)) ∧
        ∀ l ∈ literals, CutInside (l.text.dropWhile (!isQuote ·))) ∧
    ((∀ first rest value, body.parts = first :: rest → first.kind = "expression_statement" →
      first.parts = [value] → isLiteral value = false) → leadingDocstring? text body = none) := by
  refine ⟨?_, ?_⟩
  · intro first rest value literals hbody hkind hparts hwritten
    have hdoc := leadingDocstring?_literals hbody hkind hparts hwritten
    refine ⟨?_, ?_, ?_⟩
    · intro hmute
      rw [hdoc, if_pos hmute]
    · intro hnone
      rw [hdoc, if_neg (by simpa using hnone)]
      exact ⟨fun doc => trimmed?_eq_some, trimmed?_eq_none⟩
    · intro l _
      rw [l.dropWhile_text]
      exact l.cutInside
  · intro hother
    cases hdoc : leadingDocstring? text body with
    | none => rfl
    | some doc =>
      obtain ⟨first, rest, value, content, hbody, hkind, hparts, hcontent, -⟩ :=
        leadingDocstring?_eq_some.mp hdoc
      have hliteral := isLiteral_of_stringValue? hcontent
      rw [hother first rest value hbody hkind hparts] at hliteral
      cases hliteral

def mixedText : List Char := "r'é\\n' \"\\x41 \"\n".toList

/-- The tree of `mixedText`: a raw literal and a plain one, written one after the other. -/
def mixedTree : Concrete :=
  soundNode "module" true none ⟨0, 0, 0⟩ ⟨1, 0, 16⟩ [
    soundNode "expression_statement" true none ⟨0, 0, 0⟩ ⟨0, 15, 15⟩ [
      soundNode "concatenated_string" true none ⟨0, 0, 0⟩ ⟨0, 15, 15⟩ [
        soundNode "string" true none ⟨0, 0, 0⟩ ⟨0, 7, 7⟩ [],
        soundNode "string" true none ⟨0, 8, 8⟩ ⟨0, 15, 15⟩ []]]]

def rawLiteral : Literal where
  flags := ['r']
  delimiter := ⟨'\'', false, by decide⟩
  body := ['é', '\\', 'n']
  flags_plain := by simp [isQuote]
  body_apart := by decide

def plainLiteral : Literal where
  flags := []
  delimiter := ⟨'"', false, by decide⟩
  body := ['\\', 'x', '4', '1', ' ']
  flags_plain := by simp [isQuote]
  body_apart := by decide

/-- The backslash of the raw literal stays, that of the plain one is an escape, and the blank at the
end goes. -/
theorem mixedTree_documented :
    leadingDocstring? mixedText mixedTree = some "é\\nA" ∧ CutInside rawLiteral.quoted := by
  have hwritten : ∀ value ∈ mixedTree.parts.flatMap Concrete.parts,
      WrittenAs mixedText value [rawLiteral, plainLiteral] := by
    intro value hvalue
    obtain rfl := List.mem_singleton.mp hvalue
    exact .concatenation rfl (by decide +kernel)
  have hplain : ∀ l ∈ [rawLiteral, plainLiteral], ¬ l.IsMute := by decide
  obtain ⟨-, hcontent, hcut⟩ :=
    (docstring_content mixedText mixedTree).1 _ _ _ _ rfl rfl rfl (hwritten _ List.mem_cons_self)
  refine ⟨((hcontent hplain).1 _).mpr (trims_iff.mpr (by decide +kernel)), ?_⟩
  simpa [Literal.dropWhile_text] using hcut rawLiteral List.mem_cons_self

end SourceAudit.Syntax
