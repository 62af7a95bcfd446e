import SourceAudit.Proofs.Syntax.Slice
import SourceAudit.Text.Lines

/-!
Rows and lines. The row of a byte offset is the number of newline bytes before it, and the lines of
a text are counted from its front: the line with the number of that row is the one that the offset
is in (`getElem?_rowAt`), and there is none exactly at the end of a text that is empty or ends with
a line feed (`getElem?_rowAt_eq_none`).
-/

namespace SourceAudit.Text

open SourceAudit.Syntax (byteSize byteSize_append byteSize_cons byteSize_nil)

/-! ### Newline bytes -/

/-- The bytes of a text. -/
def bytesOf (cs : List Char) : List UInt8 := cs.flatMap String.utf8EncodeChar

def newlineByte : UInt8 := 10

/-- The row of a byte offset: the number of newline bytes before it. -/
def rowAt (text : List Char) (p : Nat) : Nat := ((bytesOf text).take p).count newlineByte

theorem bytesOf_append (as bs : List Char) : bytesOf (as ++ bs) = bytesOf as ++ bytesOf bs :=
  List.flatMap_append

theorem length_bytesOf (cs : List Char) : (bytesOf cs).length = byteSize cs := by
  induction cs with
  | nil => rfl
  | cons c cs ih =>
    rw [byteSize_cons, ← ih, ← String.length_utf8EncodeChar, ← List.length_append]
    rfl

/-- Every byte of a character outside ASCII is at least 128. -/
theorem newlineByte_not_mem {c : Char} (h : c ≠ '\n') :
    newlineByte ∉ String.utf8EncodeChar c := by
  have hcode : c.val.toNat ≠ 10 := fun heq => h (Char.ext (UInt32.toNat_inj.mp heq))
  intro hmem
  obtain ⟨b, hb, hten⟩ : ∃ b ∈ String.utf8EncodeChar c, b.toNat = 10 := ⟨_, hmem, rfl⟩
  unfold String.utf8EncodeChar at hb
  simp only at hb
  split at hb
  · simp only [List.mem_singleton] at hb
    subst hb
    rw [UInt8.toNat_ofNat'] at hten
    omega
  split at hb
  · simp only [List.mem_cons, List.not_mem_nil, or_false] at hb
    rcases hb with rfl | rfl <;> rw [UInt8.toNat_ofNat'] at hten <;> omega
  split at hb
  · simp only [List.mem_cons, List.not_mem_nil, or_false] at hb
    rcases hb with rfl | rfl | rfl <;> rw [UInt8.toNat_ofNat'] at hten <;> omega
  · simp only [List.mem_cons, List.not_mem_nil, or_false] at hb
    rcases hb with rfl | rfl | rfl | rfl <;> rw [UInt8.toNat_ofNat'] at hten <;> omega

theorem count_bytesOf (cs : List Char) : (bytesOf cs).count newlineByte = cs.count '\n' := by
  induction cs with
  | nil => rfl
  | cons c cs ih =>
    have hcons : bytesOf (c :: cs) = String.utf8EncodeChar c ++ bytesOf cs := rfl
    rw [hcons, List.count_append, ih]
    by_cases hc : c = '\n'
    · subst hc
      rw [List.count_cons_self, Nat.add_comm]
      rfl
    · rw [List.count_eq_zero.mpr (newlineByte_not_mem hc), List.count_cons_of_ne hc, Nat.zero_add]

theorem rowAt_append (before rest : List Char) (k : Nat) :
    rowAt (before ++ rest) (byteSize before + k) = before.count '\n' + rowAt rest k := by
  rw [rowAt, bytesOf_append, ← length_bytesOf, List.take_length_add_append, List.count_append,
    count_bytesOf, ← rowAt]

/-- No newline byte stands before an offset in a text without line feeds. -/
theorem rowAt_eq_zero {body : List Char} (hbody : '\n' ∉ body) (rest : List Char) {k : Nat}
    (hk : k ≤ byteSize body) : rowAt (body ++ rest) k = 0 := by
  have hnone : newlineByte ∉ bytesOf body := by
    rw [← List.count_eq_zero, count_bytesOf]
    exact List.count_eq_zero.mpr hbody
  rw [rowAt, bytesOf_append, List.take_append_of_le_length (by rwa [length_bytesOf])]
  exact List.count_eq_zero.mpr fun hmem => hnone (List.mem_of_mem_take hmem)

/-! ### The lines of a text -/

/-- Nothing, or a text that ends with a line feed. -/
def EndsLine (cs : List Char) : Prop := cs = [] ∨ cs.getLast? = some '\n'

theorem EndsLine.cases {cs : List Char} (h : EndsLine cs) :
    cs = [] ∨ ∃ front, cs = front ++ ['\n'] := by
  rcases h with h | h
  · exact .inl h
  · exact .inr ((List.getLast?_eq_some_iff).mp h)

theorem EndsLine.after_feed {cs : List Char} (h : EndsLine cs) (body : List Char) :
    EndsLine (body ++ '\n' :: cs) := by
  right
  rw [List.getLast?_append_of_ne_nil _ (by simp), List.getLast?_cons]
  rcases h with rfl | hlast
  · rfl
  · rw [hlast, Option.getD_some]

theorem linesFrom_feed (begun front rest : List Char) :
    linesFrom begun (front ++ '\n' :: rest) = linesFrom begun (front ++ ['\n']) ++ lines rest := by
  induction front generalizing begun with
  | nil => simp [linesFrom, lines]
  | cons c front ih =>
    by_cases hc : c = '\n'
    · simp [linesFrom, hc, ih]
    · simp [linesFrom, hc, ih]

theorem length_linesFrom_feed (begun front : List Char) :
    (linesFrom begun (front ++ ['\n'])).length = (front ++ ['\n']).count '\n' := by
  induction front generalizing begun with
  | nil => simp [linesFrom]
  | cons c front ih =>
    by_cases hc : c = '\n'
    · simp [linesFrom, hc, ih]
    · simp [linesFrom, hc, ih]

/-- Lines that are complete stay when text is added. -/
theorem lines_append {before : List Char} (h : EndsLine before) (rest : List Char) :
    lines (before ++ rest) = lines before ++ lines rest := by
  rcases h.cases with rfl | ⟨front, rfl⟩
  · rfl
  · rw [List.append_assoc]
    exact linesFrom_feed [] front rest

theorem length_lines_of_endsLine {cs : List Char} (h : EndsLine cs) :
    (lines cs).length = cs.count '\n' := by
  rcases h.cases with rfl | ⟨front, rfl⟩
  · rfl
  · exact length_linesFrom_feed [] front

theorem linesFrom_body {body : List Char} (hbody : '\n' ∉ body) (begun rest : List Char) :
    linesFrom begun (body ++ rest) = linesFrom (body.reverse ++ begun) rest := by
  induction body generalizing begun with
  | nil => rfl
  | cons c body ih =>
    rw [List.mem_cons, not_or] at hbody
    rw [List.cons_append, linesFrom, if_neg (Ne.symm hbody.1), ih hbody.2]
    simp

theorem lines_body_feed {body : List Char} (hbody : '\n' ∉ body) (rest : List Char) :
    lines (body ++ '\n' :: rest) = dropReturn body :: lines rest := by
  rw [lines, linesFrom_body hbody, linesFrom, if_pos rfl]
  simp [lines]

theorem lines_body {body : List Char} (hbody : '\n' ∉ body) (hne : body ≠ []) :
    lines body = [body] := by
  have hlines := linesFrom_body hbody [] []
  rw [List.append_nil] at hlines
  simp [lines, hlines, linesFrom, hne]

/-- A character in front of a text that is not empty makes no new line. -/
theorem length_lines_cons {c : Char} (hc : c ≠ '\n') {cs : List Char} (hne : cs ≠ []) :
    (lines (c :: cs)).length = (lines cs).length := by
  by_cases hfeed : '\n' ∈ cs
  · obtain ⟨body, rest, rfl, hbody⟩ := List.eq_append_cons_of_mem hfeed
    have hfirst : '\n' ∉ c :: body := by simp [hbody, hc.symm]
    rw [lines_body_feed hbody, ← List.cons_append, lines_body_feed hfirst, List.length_cons,
      List.length_cons]
  · have hfirst : '\n' ∉ c :: cs := by simp [hfeed, hc.symm]
    rw [lines_body hfeed hne, lines_body hfirst (List.cons_ne_nil _ _)]
    rfl

theorem dropReturn_concat (line : List Char) : dropReturn (line ++ ['\r']) = line := by
  simp [dropReturn]

theorem dropReturn_eq_self {line : List Char} (h : line.getLast? ≠ some '\r') :
    dropReturn line = line := by
  unfold dropReturn
  split
  · contradiction
  · rfl

/-! ### The line of an offset -/

/-- The text has `line` between `before` and `after`: it begins at the front or after a line feed,
and ends with a line feed, with a carriage return and a line feed, or, if it is not empty, with the
text. -/
structure IsLine (text before line ending after : List Char) : Prop where
  split : text = before ++ (line ++ (ending ++ after))
  starts : EndsLine before
  unbroken : '\n' ∉ line
  ends : ending = ['\r', '\n'] ∨ ending = ['\n'] ∧ line.getLast? ≠ some '\r' ∨
    ending = [] ∧ after = [] ∧ line ≠ []

/-- The byte offset is in the line or in its ending, or right behind a line without an ending. -/
def LineAt (text : List Char) (p : Nat) (line : List Char) : Prop :=
  ∃ before ending after, IsLine text before line ending after ∧ byteSize before ≤ p ∧
    (p < byteSize (before ++ (line ++ ending)) ∨ ending = [] ∧ p = byteSize (before ++ line))

/-- What stands between two line feeds, or between a line feed and the end of the text, is a line,
a carriage return at its end apart. -/
theorem IsLine.body {text before line ending after : List Char}
    (h : IsLine text before line ending after) :
    ∃ body rest, text = before ++ (body ++ rest) ∧ '\n' ∉ body ∧
      (lines (body ++ rest)).head? = some line ∧
      byteSize line + byteSize ending ≤ byteSize body + 1 ∧
      (ending = [] → byteSize line ≤ byteSize body) := by
  obtain ⟨hsplit, -, hline, hends⟩ := h
  rcases hends with rfl | ⟨rfl, hlast⟩ | ⟨rfl, rfl, hne⟩
  · have hbody : '\n' ∉ line ++ ['\r'] := by simp [hline]
    refine ⟨line ++ ['\r'], '\n' :: after, by simp [hsplit], hbody, ?_, ?_, nofun⟩
    · rw [lines_body_feed hbody, dropReturn_concat, List.head?_cons]
    · have hfeed : byteSize ['\r', '\n'] = byteSize ['\r'] + 1 := by decide
      rw [byteSize_append, hfeed, Nat.add_assoc]
  · refine ⟨line, '\n' :: after, by simp [hsplit], hline, ?_, ?_, nofun⟩
    · rw [lines_body_feed hline, dropReturn_eq_self hlast, List.head?_cons]
    · exact Nat.le_refl _
  · refine ⟨line, [], by simp [hsplit], hline, ?_, by simp, fun _ => Nat.le_refl _⟩
    rw [List.append_nil, lines_body hline hne, List.head?_cons]

theorem LineAt.getElem? {text line : List Char} {p : Nat} (h : LineAt text p line) :
    (lines text)[rowAt text p]? = some line := by
  obtain ⟨before, ending, after, hline, hle, hin⟩ := h
  obtain ⟨body, rest, rfl, hbody, hhead, hsize, hbare⟩ := hline.body
  obtain ⟨k, rfl⟩ := Nat.exists_eq_add_of_le hle
  have hk : k ≤ byteSize body := by
    rcases hin with hlt | ⟨rfl, heq⟩
    · rw [byteSize_append, byteSize_append] at hlt
      omega
    · have := hbare rfl
      rw [byteSize_append] at heq
      omega
  rw [rowAt_append, rowAt_eq_zero hbody rest hk, Nat.add_zero, lines_append hline.starts,
    ← length_lines_of_endsLine hline.starts, List.getElem?_append_right (Nat.le_refl _),
    Nat.sub_self, ← List.head?_eq_getElem?]
  exact hhead

/-- Induction on the lines of a text. -/
theorem lineInduction {P : List Char → Prop} (nil : P [])
    (last : ∀ body, '\n' ∉ body → body ≠ [] → P body)
    (feed : ∀ body rest, '\n' ∉ body → P rest → P (body ++ '\n' :: rest)) (text : List Char) :
    P text := by
  induction hn : text.length using Nat.strong_induction_on generalizing text with
  | _ n ih =>
    by_cases hfeed : '\n' ∈ text
    · obtain ⟨body, rest, rfl, hbody⟩ := List.eq_append_cons_of_mem hfeed
      rw [List.length_append, List.length_cons] at hn
      exact feed body rest hbody (ih rest.length (by omega) rest rfl)
    · by_cases hne : text = []
      · exact hne ▸ nil
      · exact last text hfeed hne

/-- The first line of a text with a line feed. -/
theorem isLine_first {body : List Char} (hbody : '\n' ∉ body) (rest : List Char) :
    ∃ line ending, IsLine (body ++ '\n' :: rest) [] line ending rest ∧
      byteSize (line ++ ending) = byteSize body + 1 := by
  have hfeed : byteSize ['\n'] = 1 := by decide
  by_cases hreturn : body.getLast? = some '\r'
  · obtain ⟨line, rfl⟩ := List.getLast?_eq_some_iff.mp hreturn
    have hline : '\n' ∉ line := fun h => hbody (List.mem_append_left _ h)
    refine ⟨line, ['\r', '\n'], ⟨by simp, .inl rfl, hline, .inl rfl⟩, ?_⟩
    rw [← hfeed, ← byteSize_append, List.append_assoc]
    rfl
  · refine ⟨body, ['\n'], ⟨by simp, .inl rfl, hbody, .inr (.inl ⟨rfl, hreturn⟩)⟩, ?_⟩
    rw [byteSize_append, hfeed]

theorem IsLine.after_feed {body text before line ending after : List Char}
    (h : IsLine text before line ending after) :
    IsLine (body ++ '\n' :: text) (body ++ '\n' :: before) line ending after := by
  obtain ⟨hsplit, hstarts, hline, hends⟩ := h
  exact ⟨by simp [hsplit], hstarts.after_feed body, hline, hends⟩

/-- Every offset of a text is in a line, the end of the text apart if a line ends there. -/
theorem exists_lineAt {text : List Char} {p : Nat} (hp : p ≤ byteSize text)
    (hend : p = byteSize text → ¬ EndsLine text) : ∃ line, LineAt text p line := by
  induction text using lineInduction generalizing p with
  | nil => exact absurd (.inl rfl) (hend (by simpa using hp))
  | last body hbody hne =>
    refine ⟨body, [], [], [], ⟨by simp, .inl rfl, hbody, .inr (.inr ⟨rfl, rfl, hne⟩)⟩,
      Nat.zero_le _, ?_⟩
    rw [List.append_nil, List.nil_append]
    rcases Nat.lt_or_eq_of_le hp with hlt | heq
    · exact .inl hlt
    · exact .inr ⟨rfl, heq⟩
  | feed body rest hbody ih =>
    by_cases hfirst : p ≤ byteSize body
    · obtain ⟨line, ending, hline, hsize⟩ := isLine_first hbody rest
      exact ⟨line, [], ending, rest, hline, Nat.zero_le _, .inl (by rw [List.nil_append]; omega)⟩
    · obtain ⟨k, rfl⟩ := Nat.exists_eq_add_of_le (Nat.lt_of_not_le hfirst)
      have hsize (cs : List Char) :
          byteSize (body ++ '\n' :: cs) = byteSize body + 1 + byteSize cs := by
        rw [byteSize_append, byteSize_cons]
        exact (Nat.add_assoc _ _ _).symm
      rw [hsize] at hp hend
      have hrest : k = byteSize rest → ¬ EndsLine rest :=
        fun hk hline => hend (by omega) (hline.after_feed body)
      obtain ⟨line, before, ending, after, hline, hle, hin⟩ := ih (by omega) hrest
      refine ⟨line, body ++ '\n' :: before, ending, after, hline.after_feed, ?_, ?_⟩
      · rw [hsize]
        omega
      · rw [List.append_assoc, List.append_assoc, List.cons_append, List.cons_append, hsize, hsize]
        rcases hin with hlt | ⟨hbare, heq⟩
        · exact .inl (by omega)
        · exact .inr ⟨hbare, by omega⟩

theorem getElem?_rowAt_end {text : List Char} (h : EndsLine text) :
    (lines text)[rowAt text (byteSize text)]? = none := by
  have hrow := rowAt_append text [] 0
  rw [List.append_nil, Nat.add_zero] at hrow
  rw [List.getElem?_eq_none_iff, hrow, length_lines_of_endsLine h]
  exact Nat.le_add_right _ _

/-- The line in the row of an offset is the line that the offset is in. -/
theorem getElem?_rowAt {text line : List Char} {p : Nat} (hp : p ≤ byteSize text) :
    (lines text)[rowAt text p]? = some line ↔ LineAt text p line := by
  refine ⟨?_, LineAt.getElem?⟩
  intro hget
  have hend : p = byteSize text → ¬ EndsLine text := by
    rintro rfl hline
    rw [getElem?_rowAt_end hline] at hget
    cases hget
  obtain ⟨found, hfound⟩ := exists_lineAt hp hend
  rw [hfound.getElem?] at hget
  cases hget
  exact hfound

/-- There is no line in the row of an offset exactly at the end of a text that ends a line. -/
theorem getElem?_rowAt_eq_none {text : List Char} {p : Nat} (hp : p ≤ byteSize text) :
    (lines text)[rowAt text p]? = none ↔ p = byteSize text ∧ EndsLine text := by
  constructor
  · intro hget
    by_contra hnot
    obtain ⟨line, hline⟩ := exists_lineAt hp fun heq hends => hnot ⟨heq, hends⟩
    rw [hline.getElem?] at hget
    cases hget
  · rintro ⟨rfl, hends⟩
    exact getElem?_rowAt_end hends

theorem rowAt_lt {text : List Char} {p : Nat} (hp : p < byteSize text) :
    rowAt text p < (lines text).length := by
  by_contra hge
  have hnone := List.getElem?_eq_none (Nat.le_of_not_lt hge)
  rw [getElem?_rowAt_eq_none hp.le] at hnone
  exact absurd hnone.1 hp.ne

end SourceAudit.Text
