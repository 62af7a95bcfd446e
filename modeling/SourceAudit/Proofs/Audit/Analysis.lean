import SourceAudit.Audit.Analysis
import SourceAudit.Proofs.Audit.Findings

/-!
What the parts of a report have to do with one another. A report is put together from the verdict,
the findings, the metrics and the outcome of the linter, each computed on its own; on every way
through the analysis they agree (`analyze_agrees`).
-/

namespace SourceAudit.Audit

open SourceAudit.Syntax (Node SyntaxError)

/-! ### Findings by kind -/

theorem kind_moduleDocIssues (tree : Node) :
    ∀ i ∈ moduleDocIssues tree, i.kind = .missingModuleDoc := by
  unfold moduleDocIssues
  split
  · simp
  · simp

theorem kind_definitionDocIssues (tree : Node) :
    ∀ i ∈ definitionDocIssues tree, i.kind = .missingFunctionDoc ∨ i.kind = .missingClassDoc := by
  intro i hi
  obtain ⟨n, -, hn⟩ := List.mem_filterMap.mp hi
  rcases definitionDocIssue?_eq_some.mp hn with hkind | hkind
  · exact .inl rfl
  · exact .inr rfl

theorem tooLong_longFunctionIssues {threshold : Nat} {tree : Node} :
    ∀ i ∈ longFunctionIssues threshold tree, ∃ f, TooLong threshold f i := by
  intro i hi
  obtain ⟨f, hf, hissue⟩ := List.mem_filterMap.mp hi
  have hfunction : f.isFunction = true := (List.mem_filter.mp hf).2
  exact ⟨f, longFunctionIssue?_eq_some.mp (by rwa [if_pos hfunction])⟩

theorem kind_longFunctionIssues (threshold : Nat) (tree : Node) :
    ∀ i ∈ longFunctionIssues threshold tree, i.kind = .longFunction := by
  intro i hi
  obtain ⟨f, hlong⟩ := tooLong_longFunctionIssues i hi
  cases hlong
  rfl

theorem kind_markerIssues (text : List Char) : ∀ i ∈ markerIssues text, i.kind = .workMarker := by
  unfold markerIssues
  split
  · simp
  · simp

theorem kind_duplicateImportIssues (tree : Node) :
    ∀ i ∈ duplicateImportIssues tree, i.kind = .duplicateImport := by
  unfold duplicateImportIssues
  split
  · simp
  · simp

theorem kind_emptyHandlerIssues (tree : Node) :
    ∀ i ∈ emptyHandlerIssues tree, i.kind = .emptyExceptHandler := by
  intro i hi
  obtain ⟨n, -, hn⟩ := List.mem_filterMap.mp hi
  cases emptyHandlerIssue?_eq_some.mp hn
  rfl

/-- The findings of a run, by the detectors they come from. -/
theorem detectAll_eq (threshold : Nat) (tree : Node) (text : List Char) :
    detectAll threshold tree text =
      moduleDocIssues tree ++ definitionDocIssues tree ++ longFunctionIssues threshold tree ++
        markerIssues text ++ duplicateImportIssues tree ++ emptyHandlerIssues tree := by
  simp [detectAll, detectors]

/-- The findings of the detector for a kind. -/
def findingsOf (threshold : Nat) (tree : Node) (text : List Char) : IssueKind → List Issue
  | .missingModuleDoc => moduleDocIssues tree
  | .missingFunctionDoc | .missingClassDoc => definitionDocIssues tree
  | .longFunction => longFunctionIssues threshold tree
  | .workMarker => markerIssues text
  | .duplicateImport => duplicateImportIssues tree
  | .emptyExceptHandler => emptyHandlerIssues tree

/-- No detector finds what another one is for. -/
theorem filter_kind_detectAll (threshold : Nat) (tree : Node) (text : List Char) (k : IssueKind) :
    (detectAll threshold tree text).filter (fun i => i.kind = k) =
      (findingsOf threshold tree text k).filter (fun i => i.kind = k) := by
  have hnone {issues : List Issue} (h : ∀ i ∈ issues, i.kind ≠ k) :
      issues.filter (fun i => i.kind = k) = [] := by
    simpa [List.filter_eq_nil_iff] using h
  have hmodule (hk : k ≠ .missingModuleDoc) := hnone fun i hi =>
    (kind_moduleDocIssues tree i hi).trans_ne hk.symm
  have hlong (hk : k ≠ .longFunction) := hnone fun i hi =>
    (kind_longFunctionIssues threshold tree i hi).trans_ne hk.symm
  have hmarkers (hk : k ≠ .workMarker) := hnone fun i hi =>
    (kind_markerIssues text i hi).trans_ne hk.symm
  have himports (hk : k ≠ .duplicateImport) := hnone fun i hi =>
    (kind_duplicateImportIssues tree i hi).trans_ne hk.symm
  have hhandlers (hk : k ≠ .emptyExceptHandler) := hnone fun i hi =>
    (kind_emptyHandlerIssues tree i hi).trans_ne hk.symm
  have hdefinitions (hk : k ≠ .missingFunctionDoc) (hk' : k ≠ .missingClassDoc) :=
    hnone fun i hi =>
      (kind_definitionDocIssues tree i hi).elim (·.trans_ne hk.symm) (·.trans_ne hk'.symm)
  rw [detectAll_eq]
  simp only [List.filter_append]
  cases k <;>
    simp [findingsOf, hmodule, hdefinitions, hlong, hmarkers, himports, hhandlers]

theorem mem_findingsOf {threshold : Nat} {tree : Node} {text : List Char} {i : Issue}
    (h : i ∈ detectAll threshold tree text) : i ∈ findingsOf threshold tree text i.kind := by
  have hfilter : i ∈ (detectAll threshold tree text).filter (fun j => j.kind = i.kind) := by
    simpa using h
  rw [filter_kind_detectAll] at hfilter
  exact (List.mem_filter.mp hfilter).1

/-- There is one finding about work markers if there are any, and it has their number. -/
theorem markerIssues_eq (text : List Char) :
    (countMarkers text = 0 ∧ markerIssues text = []) ∨
      0 < countMarkers text ∧
        ∃ i, markerIssues text = [i] ∧ i.kind = .workMarker ∧
          i.count = some (countMarkers text) := by
  unfold markerIssues
  split
  · rename_i hzero
    exact .inl ⟨hzero, rfl⟩
  · rename_i hpositive
    refine .inr ⟨Nat.pos_of_ne_zero hpositive, _, rfl, rfl, rfl⟩

/-! ### What a report says -/

/-- The report carries the syntax error and nothing else. -/
structure OnlyError (e : SyntaxError) (r : Report) : Prop where
  syntaxError : r.syntaxError = some e
  issues : r.issues = []
  externalIssues : r.externalIssues = []
  metrics : r.metrics =
    { linesOfCode := 0, todoCount := 0, issueCount := 0, qualityScore := none }

/-- The span of a finding about a function that is too long. -/
structure SpanAgrees (threshold : Nat) (i : Issue) (span : LineSpan) (place : Location) : Prop where
  span_eq : i.span = some span
  location_eq : i.location = some place
  startLine_eq : span.startLine = place.line
  endLine_eq : span.endLine = span.startLine + span.length
  long : threshold < span.length

/-- The findings and the metrics of a report on a valid text agree with the text and with each
other, whatever the linter has added. -/
structure Measured (threshold : Nat) (text : List Char) (r : Report) : Prop where
  syntaxError : r.syntaxError = none
  lines : r.metrics.linesOfCode = (Text.lines text).length
  markers : r.metrics.todoCount = countMarkers text
  marked : 0 < r.metrics.todoCount ↔ HoldsMarker text
  markerFound : (∃ i ∈ r.issues, i.kind = .workMarker) ↔ 0 < r.metrics.todoCount
  markerOnce : ∀ i ∈ r.issues, i.kind = .workMarker →
    r.issues.filter (fun j => j.kind = .workMarker) = [i] ∧ i.count = some r.metrics.todoCount
  longFunctions : ∀ i ∈ r.issues, i.kind = .longFunction →
    ∃ span place, SpanAgrees threshold i span place

/-- The linter adds its messages and its score; all else stays, also if it fails. -/
theorem lintReport_eq (lint : Option Lint) (path : String) (r : Report) :
    ∃ messages score, lintReport lint path r =
      { r with
        metrics := { r.metrics with qualityScore := score }
        externalIssues := messages } := by
  unfold lintReport
  split
  · exact ⟨r.externalIssues, r.metrics.qualityScore, rfl⟩
  · split
    · exact ⟨r.externalIssues, r.metrics.qualityScore, rfl⟩
    · rename_i outcome _
      exact ⟨outcome.messages, outcome.score, rfl⟩

theorem spanAgrees_of_tooLong {threshold : Nat} {f : Node} {i : Issue} (h : TooLong threshold f i) :
    ∃ span place, SpanAgrees threshold i span place := by
  obtain @⟨name, isAsync, docstring, p, last, -, -, -, hlong⟩ := h
  refine ⟨_, _, rfl, rfl, rfl, ?_, hlong⟩
  -- the function is longer than the threshold, so its last line is below its first
  change last.line = f.line + (last.line - f.line)
  omega

theorem measured_inspect (threshold : Nat) (file : String) (sector : Sector) (text : List Char)
    (tree : Node) : Measured threshold text (inspect threshold file sector text tree) := by
  have hfilter : (detectAll threshold tree text).filter (fun i => i.kind = .workMarker) =
      markerIssues text := by
    rw [filter_kind_detectAll]
    simpa [findingsOf] using kind_markerIssues text
  have hmem (i : Issue) : i ∈ markerIssues text ↔
      i ∈ detectAll threshold tree text ∧ i.kind = .workMarker := by
    rw [← hfilter, List.mem_filter, decide_eq_true_eq]
  refine ⟨rfl, rfl, rfl, ?_, ?_, ?_, ?_⟩
  · have hzero : countMarkers text = 0 ↔ ¬ HoldsMarker text := countMarkers_eq_zero
    change 0 < countMarkers text ↔ HoldsMarker text
    rw [Nat.pos_iff_ne_zero, ne_eq, hzero, not_not]
  · change (∃ i ∈ detectAll threshold tree text, i.kind = .workMarker) ↔ 0 < countMarkers text
    simp only [← hmem]
    rcases markerIssues_eq text with ⟨hzero, hnil⟩ | ⟨hpositive, i, hone, -⟩
    · simp [hzero, hnil]
    · simp [hpositive, hone]
  · intro i hi hkind
    have hmarker := (hmem i).mpr ⟨hi, hkind⟩
    rcases markerIssues_eq text with ⟨-, hnil⟩ | ⟨-, j, hone, -, hcount⟩
    · simp [hnil] at hmarker
    · obtain rfl : i = j := by simpa [hone] using hmarker
      exact ⟨hfilter.trans hone, hcount⟩
  · intro i hi hkind
    have hlong := mem_findingsOf hi
    rw [hkind] at hlong
    obtain ⟨f, htoolong⟩ := tooLong_longFunctionIssues i hlong
    exact spanAgrees_of_tooLong htoolong

/-- Every report agrees with its source and with itself, for every linter. It counts its findings;
its sector is the given one, or else that of the text. On a source that is not valid it carries the
syntax error and nothing else. On a valid one it has no syntax error, its numbers are those of the
text as it was given, one finding tells of the work markers if there are any, with their number, and
the findings about long functions have spans that add up, start where the function stands and exceed
the threshold. -/
theorem analyze_agrees (threshold : Nat) (lint : Option Lint) (sector : Option Sector)
    (unit : SourceUnit) :
    (analyze threshold lint sector unit).metrics.issueCount =
      (analyze threshold lint sector unit).issues.length ∧
    (analyze threshold lint sector unit).sector = sector.getD (classify unit.text.toList) ∧
    match Syntax.parse unit.text with
    | .error e => OnlyError e (analyze threshold lint sector unit)
    | .ok _ => Measured threshold unit.text.toList (analyze threshold lint sector unit) := by
  unfold analyze
  cases Syntax.parse unit.text with
  | error e => exact ⟨rfl, rfl, rfl, rfl, rfl, rfl⟩
  | ok tree =>
    have hmeasured := measured_inspect threshold unit.path (sector.getD (classify unit.text.toList))
      unit.text.toList tree
    obtain ⟨messages, score, hlint⟩ := lintReport_eq lint unit.path
      (inspect threshold unit.path (sector.getD (classify unit.text.toList)) unit.text.toList tree)
    simp only [hlint]
    -- the fields that the linter sets are none of those that have to agree
    exact ⟨rfl, rfl, { hmeasured with }⟩

end SourceAudit.Audit
