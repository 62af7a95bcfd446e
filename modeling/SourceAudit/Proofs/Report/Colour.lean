import SourceAudit.Proofs.Text.Run
import SourceAudit.Report.Render

/-!
Colour. A part of an output in a style is its text, filled up, between the sequence of the style and
the one that turns styles off; if the text has no escape character, taking the sequences out of it
gives the part without its style (`withoutStyles_render`). All parts of a summary and of the table of
reports have texts from the report, or else words and numbers (`bare_summarySpans`,
`bare_historySpans`), so colour adds nothing to them but sequences.
-/

namespace SourceAudit.Report

open SourceAudit.Audit (Issue Metrics)
open SourceAudit.Number (Binary64)
open SourceAudit.Syntax (SyntaxError)

/-! ### Style sequences -/

/-- The character that begins a sequence. -/
def escape : Char := '\x1b'

/-- A character of the numbers in a style sequence. -/
def isParameter (c : Char) : Bool := c.isDigit || c = ';'

/-- The text behind the style sequence that it begins with: an escape character, a bracket, numbers
between semicolons, and the letter `m`. -/
def afterStyle? : List Char → Option (List Char)
  | '\x1b' :: '[' :: cs =>
    match cs.dropWhile isParameter with
    | 'm' :: rest => some rest
    | _ => none
  | _ => none

theorem length_afterStyle? {cs rest : List Char} (h : afterStyle? cs = some rest) :
    rest.length < cs.length := by
  unfold afterStyle? at h
  split at h
  · rename_i tail
    split at h
    · rename_i heq
      cases h
      have hle := (List.dropWhile_suffix isParameter (l := tail)).length_le
      rw [heq] at hle
      simp only [List.length_cons] at hle ⊢
      omega
    · cases h
  · cases h

/-- The text without its style sequences. -/
def withoutStyles : List Char → List Char
  | [] => []
  | c :: cs =>
    match _h : afterStyle? (c :: cs) with
    | some rest => withoutStyles rest
    | none => c :: withoutStyles cs
termination_by cs => cs.length
decreasing_by
  · exact length_afterStyle? _h
  · simp

theorem withoutStyles_of_afterStyle? {cs rest : List Char} (h : afterStyle? cs = some rest) :
    withoutStyles cs = withoutStyles rest := by
  cases cs with
  | nil => cases h
  | cons c cs =>
    rw [withoutStyles]
    split
    · rename_i heq
      rw [heq] at h
      cases h
      rfl
    · rename_i heq
      rw [heq] at h
      cases h

theorem withoutStyles_cons {c : Char} (hc : c ≠ escape) (cs : List Char) :
    withoutStyles (c :: cs) = c :: withoutStyles cs := by
  have hnone : afterStyle? (c :: cs) = none := by
    unfold afterStyle?
    split
    · rename_i heq
      cases heq
      exact absurd rfl hc
    · rfl
  rw [withoutStyles]
  split
  · rename_i heq
    rw [heq] at hnone
    cases hnone
  · rfl

theorem withoutStyles_append {cs : List Char} (hcs : escape ∉ cs) (rest : List Char) :
    withoutStyles (cs ++ rest) = cs ++ withoutStyles rest := by
  induction cs with
  | nil => rfl
  | cons c cs ih =>
    rw [List.mem_cons, not_or] at hcs
    rw [List.cons_append, withoutStyles_cons (Ne.symm hcs.1), ih hcs.2, List.cons_append]

/-- A sequence of these numbers vanishes. -/
theorem withoutStyles_sequence {numbers : List Char} (h : numbers.all isParameter = true)
    (rest : List Char) :
    withoutStyles ('\x1b' :: '[' :: (numbers ++ 'm' :: rest)) = withoutStyles rest := by
  apply withoutStyles_of_afterStyle?
  have hend : (numbers ++ 'm' :: rest).dropWhile isParameter = 'm' :: rest :=
    Text.dropWhile_run (List.all_eq_true.mp h) (Text.stops_cons (by decide) rest)
  simp only [afterStyle?, hend]

theorem withoutStyles_start (s : Style) (rest : List Char) :
    withoutStyles (s.start ++ rest) = withoutStyles rest := by
  have hcode : s.code.toList.all isParameter = true := by
    cases s <;> decide
  rw [Style.start, List.cons_append, List.cons_append, List.append_assoc]
  exact withoutStyles_sequence hcode rest

theorem withoutStyles_reset (rest : List Char) :
    withoutStyles (resetSequence ++ rest) = withoutStyles rest := by
  have hzero : ['0'].all isParameter = true := by decide
  exact withoutStyles_sequence hzero rest

/-! ### Parts of an output -/

theorem restyle_eq_self (s : Style) {cs : List Char} (hcs : escape ∉ cs) : restyle s cs = cs := by
  fun_induction restyle s cs with
  | case1 cs ih => exact absurd List.mem_cons_self hcs
  | case2 c cs _ ih =>
    rw [List.mem_cons, not_or] at hcs
    rw [ih hcs.2]
  | case3 => rfl

theorem escape_not_mem_padTo {cs : List Char} (hcs : escape ∉ cs) (width : Nat) :
    escape ∉ padTo width cs := by
  rw [padTo, List.mem_append, not_or]
  refine ⟨hcs, ?_⟩
  intro hmem
  exact absurd (List.eq_of_mem_replicate hmem) (by decide)

theorem withoutStyles_render {p : Span} (hp : escape ∉ p.text) (rest : List Char) :
    withoutStyles (p.render true ++ rest) = p.render false ++ withoutStyles rest := by
  have hpad := escape_not_mem_padTo hp p.width
  have hplain : p.render false = padTo p.width p.text := rfl
  rw [hplain, Span.render, restyle_eq_self p.style hp]
  split
  · rw [List.append_assoc, List.append_assoc, withoutStyles_start, withoutStyles_append hpad,
      withoutStyles_reset]
  · exact withoutStyles_append hpad rest

theorem withoutStyles_showSpans {parts : List Span} (h : ∀ p ∈ parts, escape ∉ p.text) :
    withoutStyles (showSpans true parts).toList = (showSpans false parts).toList := by
  rw [showSpans, showSpans, String.toList_ofList, String.toList_ofList]
  induction parts with
  | nil => simp [withoutStyles]
  | cons p parts ih =>
    obtain ⟨hp, hparts⟩ := List.forall_mem_cons.mp h
    rw [List.flatMap_cons, withoutStyles_render hp, ih hparts, List.flatMap_cons]

/-! ### Texts without an escape character -/

/-- A text without an escape character. -/
def EscapeFree (s : String) : Prop := escape ∉ s.toList

instance (s : String) : Decidable (EscapeFree s) := inferInstanceAs (Decidable (¬ _))

@[simp] theorem escapeFree_append {a b : String} :
    EscapeFree (a ++ b) ↔ EscapeFree a ∧ EscapeFree b := by
  simp [EscapeFree]

/-- Parts with texts without an escape character. -/
def Bare (parts : List Span) : Prop := ∀ p ∈ parts, escape ∉ p.text

@[simp] theorem bare_nil : Bare [] := nofun

@[simp] theorem bare_append {as bs : List Span} : Bare (as ++ bs) ↔ Bare as ∧ Bare bs :=
  List.forall_mem_append

@[simp] theorem bare_text {s : String} {parts : List Span} :
    Bare (text s :: parts) ↔ EscapeFree s ∧ Bare parts :=
  List.forall_mem_cons

@[simp] theorem bare_styled {style : Style} {s : String} {parts : List Span} :
    Bare (styled style s :: parts) ↔ EscapeFree s ∧ Bare parts :=
  List.forall_mem_cons

@[simp] theorem bare_column {style : Style} {width : Nat} {s : String} {parts : List Span} :
    Bare (column style width s :: parts) ↔ EscapeFree s ∧ Bare parts :=
  List.forall_mem_cons

@[simp] theorem bare_newline {parts : List Span} : Bare (newline :: parts) ↔ Bare parts := by
  rw [newline, bare_text, and_iff_right (by decide)]

theorem bare_flatMap {α : Type} {f : α → List Span} {xs : List α} (h : ∀ x ∈ xs, Bare (f x)) :
    Bare (xs.flatMap f) := by
  intro p hp
  obtain ⟨x, hx, hpx⟩ := List.mem_flatMap.mp hp
  exact h x hx p hpx

@[simp] theorem escapeFree_number (n : Nat) : EscapeFree (number n) := by
  have hdigits : (number n).toList = Nat.toDigits 10 n := String.toList_ofList
  rw [EscapeFree, hdigits]
  intro hmem
  exact absurd (Nat.isDigit_of_mem_toDigits (by decide) (by decide) hmem) (by decide)

theorem escapeFree_fixedAbs (x : Binary64) (places : Nat) : EscapeFree (x.fixedAbs places) := by
  have hdigits (width n : Nat) : EscapeFree
      (String.ofList (List.replicate width '0') ++ toString n) := by
    refine escapeFree_append.mpr ⟨?_, escapeFree_number n⟩
    rw [EscapeFree, String.toList_ofList]
    intro hmem
    exact absurd (List.eq_of_mem_replicate hmem) (by decide)
  have htake {s : String} (hs : EscapeFree s) (k : Nat) :
      EscapeFree (String.ofList (s.toList.take k)) := by
    rw [EscapeFree, String.toList_ofList]
    exact fun hmem => hs (List.mem_of_mem_take hmem)
  have hdrop {s : String} (hs : EscapeFree s) (k : Nat) :
      EscapeFree (String.ofList (s.toList.drop k)) := by
    rw [EscapeFree, String.toList_ofList]
    exact fun hmem => hs (List.mem_of_mem_drop hmem)
  unfold Binary64.fixedAbs
  refine escapeFree_append.mpr ⟨htake (hdigits _ _) _, ?_⟩
  split
  · decide
  · exact escapeFree_append.mpr ⟨by decide, hdrop (hdigits _ _) _⟩

@[simp] theorem escapeFree_fixed (x : Binary64) (places : Nat) : EscapeFree (x.fixed places) := by
  have hbody : EscapeFree (if x.isFinite then x.fixedAbs places else "inf") := by
    split
    · exact escapeFree_fixedAbs x places
    · decide
  simp only [Binary64.fixed]
  generalize (if x.isFinite then x.fixedAbs places else "inf") = body at hbody
  split
  · decide
  split
  · exact escapeFree_append.mpr ⟨by decide, hbody⟩
  · exact hbody

@[simp] theorem escapeFree_kind (k : Audit.IssueKind) : EscapeFree k.label := by
  cases k <;> decide

@[simp] theorem escapeFree_sector (s : Audit.Sector) : EscapeFree s.label := by
  cases s <;> decide

/-! ### The strings of a report -/

/-- The strings of a finding. -/
def issueStrings (i : Issue) : List String := i.message :: i.name.toList

/-- The strings of a message of the linter. -/
def messageStrings (m : Linter.Message) : List String :=
  [m.category, m.symbol, m.message, m.messageId, m.path, m.obj]

/-- All strings of a report. -/
def strings (r : Report) : List String :=
  [r.file] ++ r.analyzedOn.toList
  ++ r.syntaxError.toList.flatMap (fun e => [e.message, e.offendingText])
  ++ r.issues.flatMap issueStrings ++ r.externalIssues.flatMap messageStrings

/-- A report with no escape character in any string. -/
def Plain (r : Report) : Prop := ∀ s ∈ r.strings, EscapeFree s

theorem bare_showSyntaxError {e : SyntaxError} (hmessage : EscapeFree e.message)
    (htext : EscapeFree e.offendingText) : Bare (showSyntaxError e) := by
  unfold showSyntaxError
  split
  · simp +decide [hmessage]
  · simp +decide [hmessage, htext]

theorem bare_showMetrics (m : Metrics) : Bare (showMetrics m) := by
  unfold showMetrics
  cases m.qualityScore with
  | none => simp +decide
  | some score => simp +decide

theorem bare_heading {title : String} (h : EscapeFree title) (count : Nat) :
    Bare (heading title count) := by
  simp +decide [heading, h]

theorem bare_showIssue {i : Issue} (h : ∀ s ∈ issueStrings i, EscapeFree s) :
    Bare (showIssue i) := by
  obtain ⟨hmessage, hname⟩ := List.forall_mem_cons.mp h
  unfold showIssue
  cases hi : i.name with
  | none => cases i.line? <;> simp +decide [hmessage]
  | some name =>
    have hname : EscapeFree name := hname name (by simp [hi])
    cases i.line? <;> simp +decide [hmessage, hname]

theorem bare_showMessage {m : Linter.Message} (h : ∀ s ∈ messageStrings m, EscapeFree s) :
    Bare (showMessage m) := by
  have hsymbol : EscapeFree m.symbol := h _ (by simp [messageStrings])
  have hmessage : EscapeFree m.message := h _ (by simp [messageStrings])
  have hid : EscapeFree m.messageId := h _ (by simp [messageStrings])
  unfold showMessage
  cases m.line <;> simp +decide [hsymbol, hmessage, hid]

theorem Plain.file {r : Report} (h : r.Plain) : EscapeFree r.file := h _ (by simp [strings])

theorem Plain.time {r : Report} (h : r.Plain) {time : String} (htime : r.analyzedOn = some time) :
    EscapeFree time :=
  h _ (by simp [strings, htime])

theorem Plain.error {r : Report} (h : r.Plain) {e : SyntaxError} (he : r.syntaxError = some e) :
    EscapeFree e.message ∧ EscapeFree e.offendingText :=
  ⟨h _ (by simp [strings, he]), h _ (by simp [strings, he])⟩

theorem Plain.issue {r : Report} (h : r.Plain) {i : Issue} (hi : i ∈ r.issues) :
    ∀ s ∈ issueStrings i, EscapeFree s := by
  intro s hs
  have hmem : s ∈ r.issues.flatMap issueStrings := List.mem_flatMap.mpr ⟨i, hi, hs⟩
  exact h s (by simp [strings, hmem])

theorem Plain.message {r : Report} (h : r.Plain) {m : Linter.Message} (hm : m ∈ r.externalIssues) :
    ∀ s ∈ messageStrings m, EscapeFree s := by
  intro s hs
  have hmem : s ∈ r.externalIssues.flatMap messageStrings := List.mem_flatMap.mpr ⟨m, hm, hs⟩
  exact h s (by simp [strings, hmem])

theorem bare_showHeader {r : Report} (h : r.Plain) : Bare (showHeader r) := by
  unfold showHeader
  cases htime : r.analyzedOn with
  | none => simp +decide [h.file]
  | some time => simp +decide [h.file, h.time htime]

theorem bare_showFindings {r : Report} (h : r.Plain) : Bare (showFindings r) := by
  have hissues : Bare (showIssues r.issues) := by
    unfold showIssues
    rw [bare_append, bare_append]
    exact ⟨⟨bare_heading (by decide) _, by simp⟩,
      bare_flatMap fun i hi => bare_showIssue (h.issue hi)⟩
  have hmessages : Bare (showMessages r.externalIssues) := by
    unfold showMessages
    rw [bare_append]
    exact ⟨bare_heading (by decide) _, bare_flatMap fun m hm => bare_showMessage (h.message hm)⟩
  unfold showFindings
  simp only [bare_append]
  refine ⟨⟨⟨⟨bare_showMetrics r.metrics, by simp⟩, ?_⟩, ?_⟩, ?_⟩
  · split
    · exact bare_nil
    · simp [hissues]
  · split
    · exact bare_nil
    · simp [hmessages]
  · split
    · simp +decide
    · exact bare_nil

theorem bare_summarySpans {r : Report} (h : r.Plain) : Bare r.summarySpans := by
  unfold summarySpans
  rw [bare_append]
  refine ⟨bare_showHeader h, ?_⟩
  cases he : r.syntaxError with
  | none => exact bare_showFindings h
  | some e =>
    obtain ⟨hmessage, htext⟩ := h.error he
    simp [bare_showSyntaxError hmessage htext]

theorem bare_historyRow {r : Report} (h : r.Plain) : Bare (historyRow r) := by
  have htime : EscapeFree (r.analyzedOn.getD "-") := by
    cases htime : r.analyzedOn with
    | none => decide
    | some time => exact h.time htime
  unfold historyRow
  split
  · simp +decide [htime, h.file]
  · simp +decide [htime, h.file]

theorem bare_historySpans (limit : Option Nat) {rs : List Report} (h : ∀ r ∈ rs, r.Plain) :
    Bare (historySpans limit rs) := by
  have hlatest : ∀ r ∈ latest limit rs, r ∈ rs := by
    cases limit with
    | none => exact fun r hr => hr
    | some n => exact fun r hr => List.mem_of_mem_drop hr
  unfold historySpans
  rw [bare_append, bare_append]
  exact ⟨⟨bare_heading (by decide) _, by simp⟩,
    bare_flatMap fun r hr => bare_historyRow (h r (hlatest r hr))⟩

/-! ### With and without colour -/

theorem escapeFree_showSpans {parts : List Span} (h : Bare parts) :
    EscapeFree (showSpans false parts) := by
  rw [EscapeFree, showSpans, String.toList_ofList, List.mem_flatMap]
  rintro ⟨p, hp, hmem⟩
  exact escape_not_mem_padTo (h p hp) p.width hmem

theorem not_escapeFree_showSpans {parts : List Span} {p : Span} (hp : p ∈ parts)
    (hstyle : p.style ≠ .plain) : ¬ EscapeFree (showSpans true parts) := by
  have hstart : escape ∈ p.render true := by
    simp [Span.render, hstyle, Style.start, escape]
  rw [EscapeFree, showSpans, String.toList_ofList, not_not]
  exact List.mem_flatMap.mpr ⟨p, hp, hstart⟩

/-- The two outputs have the same text: the coloured one has sequences in it, the other one has none,
and without its sequences the coloured one is the other one. -/
structure DifferInStyle (coloured uncoloured : String) : Prop where
  same : withoutStyles coloured.toList = uncoloured.toList
  styled : ¬ EscapeFree coloured
  unstyled : EscapeFree uncoloured

theorem differInStyle_showSpans {parts : List Span} (h : Bare parts) {p : Span} (hp : p ∈ parts)
    (hstyle : p.style ≠ .plain) : DifferInStyle (showSpans true parts) (showSpans false parts) :=
  ⟨withoutStyles_showSpans h, not_escapeFree_showSpans hp hstyle, escapeFree_showSpans h⟩

/-- Colour does not change the text: for reports without an escape character in any string, the
summary of a report and the table of any number of reports up to any limit are, with colour and
without their style sequences, what they are without colour. -/
theorem colour_keeps_text :
    (∀ r : Report, r.Plain → DifferInStyle (summary true r) (summary false r)) ∧
    (∀ limit (rs : List Report), (∀ r ∈ rs, r.Plain) →
      DifferInStyle (history true limit rs) (history false limit rs)) := by
  constructor
  · intro r h
    have hname : Report.styled .boldCyan programName ∈ r.summarySpans := by
      simp [summarySpans, showHeader]
    exact differInStyle_showSpans (bare_summarySpans h) hname (by decide)
  · intro limit rs h
    have htitle : Report.styled .bold "Reports" ∈ historySpans limit rs := by
      simp [historySpans, heading]
    exact differInStyle_showSpans (bare_historySpans limit h) htitle (by decide)

/-- A report with the letters of a sequence in its strings, but no escape character. -/
def bracketReport : Report :=
  { file := "[0m.py", sector := .health, syntaxError := none
    issues := [{ kind := .missingFunctionDoc, message := "Missing docstring in function 'm'"
                 location := some ⟨3, 1⟩, name := some "m" }]
    metrics := { linesOfCode := 4, todoCount := 1, issueCount := 1
                 qualityScore := some ⟨0x401aae147ae147ae⟩ }
    externalIssues := [{ symbol := "missing-docstring", messageId := "[31m", line := some 1 }] }

theorem bracketReport_coloured :
    bracketReport.Plain ∧
      withoutStyles (summary true bracketReport).toList = (summary false bracketReport).toList ∧
      withoutStyles (history true (some 1) [bracketReport, bracketReport]).toList =
        (history false (some 1) [bracketReport, bracketReport]).toList := by
  have hplain : bracketReport.Plain := by unfold Plain; decide
  have hall : ∀ r ∈ [bracketReport, bracketReport], r.Plain := by simp [hplain]
  obtain ⟨hsummary, hhistory⟩ := colour_keeps_text
  exact ⟨hplain, (hsummary _ hplain).same, (hhistory (some 1) _ hall).same⟩

end SourceAudit.Report
