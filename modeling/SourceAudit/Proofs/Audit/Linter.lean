import SourceAudit.Audit.Analysis
import SourceAudit.Linter.Command

/-!
What a linter can do to a report. Whether there is one, and whether it fails or what it gives, shows
in the score and in the messages of the linter and nowhere else (`linter_cannot_disturb`). The
reason is one equation: a report is the report without a linter, to which the outcome is added if
there is one and the source is valid (`analyze_eq`).
-/

namespace SourceAudit.Audit

variable (threshold : Nat) (sector : Option Sector) (unit : SourceUnit)

/-- What a linter gives for a path: nothing if there is none or it fails. -/
def outcome? (lint : Option Lint) (path : String) : Option Linter.Outcome :=
  lint.bind fun run => run path

theorem lintReport_eq_elim (lint : Option Lint) (path : String) (r : Report) :
    lintReport lint path r = (outcome? lint path).elim r (withLinter r) := by
  cases lint with
  | none => rfl
  | some run =>
    simp only [lintReport, outcome?, Option.bind_some]
    cases run path with
    | none => rfl
    | some outcome => rfl

/-- The report on a valid source is that without a linter, with the outcome added. -/
theorem analyze_eq (lint : Option Lint) {tree : Syntax.Node} (h : Syntax.parse unit.text = .ok tree) :
    analyze threshold lint sector unit =
      (outcome? lint unit.path).elim (analyze threshold none sector unit)
        (withLinter (analyze threshold none sector unit)) := by
  have hnone : analyze threshold none sector unit =
      inspect threshold unit.path (sector.getD (classify unit.text.toList)) unit.text.toList
        tree := by
    simp only [analyze, h, lintReport]
  rw [hnone, ← lintReport_eq_elim]
  simp only [analyze, h]

/-- On a source that is not valid no linter is run. -/
theorem analyze_eq_of_error (lint : Option Lint) {e : Syntax.SyntaxError}
    (h : Syntax.parse unit.text = .error e) :
    analyze threshold lint sector unit = analyze threshold none sector unit := by
  simp only [analyze, h]

/-- The reports agree in all but the score and the messages of the linter. -/
structure SameButLinter (r s : Report) : Prop where
  file : r.file = s.file
  sector : r.sector = s.sector
  syntaxError : r.syntaxError = s.syntaxError
  issues : r.issues = s.issues
  linesOfCode : r.metrics.linesOfCode = s.metrics.linesOfCode
  todoCount : r.metrics.todoCount = s.metrics.todoCount
  issueCount : r.metrics.issueCount = s.metrics.issueCount
  analyzedOn : r.analyzedOn = s.analyzedOn

namespace SameButLinter

variable {r s t : Report}

theorem refl (r : Report) : SameButLinter r r := ⟨rfl, rfl, rfl, rfl, rfl, rfl, rfl, rfl⟩

theorem symm (h : SameButLinter r s) : SameButLinter s r :=
  ⟨h.file.symm, h.sector.symm, h.syntaxError.symm, h.issues.symm, h.linesOfCode.symm,
    h.todoCount.symm, h.issueCount.symm, h.analyzedOn.symm⟩

theorem trans (h : SameButLinter r s) (h' : SameButLinter s t) : SameButLinter r t :=
  ⟨h.file.trans h'.file, h.sector.trans h'.sector, h.syntaxError.trans h'.syntaxError,
    h.issues.trans h'.issues, h.linesOfCode.trans h'.linesOfCode, h.todoCount.trans h'.todoCount,
    h.issueCount.trans h'.issueCount, h.analyzedOn.trans h'.analyzedOn⟩

theorem isConsistent (h : SameButLinter r s) : r.isConsistent = s.isConsistent := by
  simp only [Report.isConsistent, h.issueCount, h.issues]

end SameButLinter

theorem sameButLinter_withLinter (r : Report) (outcome : Linter.Outcome) :
    SameButLinter (withLinter r outcome) r := ⟨rfl, rfl, rfl, rfl, rfl, rfl, rfl, rfl⟩

theorem sameButLinter_analyze (lint : Option Lint) :
    SameButLinter (analyze threshold lint sector unit) (analyze threshold none sector unit) := by
  cases h : Syntax.parse unit.text with
  | error e =>
    rw [analyze_eq_of_error threshold sector unit lint h]
    exact .refl _
  | ok tree =>
    rw [analyze_eq threshold sector unit lint h]
    cases outcome? lint unit.path with
    | none => exact .refl _
    | some outcome => exact sameButLinter_withLinter _ outcome

/-- Without an outcome of a linter a report has neither score nor messages. -/
theorem analyze_none_unscored :
    (analyze threshold none sector unit).metrics.qualityScore = none ∧
      (analyze threshold none sector unit).externalIssues = [] := by
  unfold analyze
  cases Syntax.parse unit.text with
  | error e => exact ⟨rfl, rfl⟩
  | ok tree => exact ⟨rfl, rfl⟩

/-- The linter cannot disturb the analysis. Any two linters, absent ones and failing ones among them,
give reports that agree in all but score and messages, hence in whether they are consistent. One
that fails, in whatever way, gives the report without a linter, which has neither score nor
messages; one that succeeds on a valid source adds its score and its messages as they are. On a
source that is not valid all give the same report. -/
theorem linter_cannot_disturb :
    (∀ lint₁ lint₂ : Option Lint,
      SameButLinter (analyze threshold lint₁ sector unit) (analyze threshold lint₂ sector unit) ∧
      (analyze threshold lint₁ sector unit).isConsistent =
        (analyze threshold lint₂ sector unit).isConsistent) ∧
    (∀ run : Lint, run unit.path = none →
      analyze threshold (some run) sector unit = analyze threshold none sector unit) ∧
    (∀ (d : Files.Disk) (command : String) (f : Linter.Fault),
      Linter.runOn d command unit.path = .error f →
      analyze threshold (some fun path => (Linter.runOn d command path).toOption) sector unit =
        analyze threshold none sector unit) ∧
    (analyze threshold none sector unit).metrics.qualityScore = none ∧
    (analyze threshold none sector unit).externalIssues = [] ∧
    match Syntax.parse unit.text with
    | .ok _ => ∀ (run : Lint) (outcome : Linter.Outcome), run unit.path = some outcome →
        analyze threshold (some run) sector unit =
          { analyze threshold none sector unit with
            metrics := { (analyze threshold none sector unit).metrics with
              qualityScore := outcome.score }
            externalIssues := outcome.messages }
    | .error _ => ∀ lint₁ lint₂ : Option Lint,
        analyze threshold lint₁ sector unit = analyze threshold lint₂ sector unit := by
  have hsame (lint₁ lint₂ : Option Lint) :
      SameButLinter (analyze threshold lint₁ sector unit) (analyze threshold lint₂ sector unit) :=
    (sameButLinter_analyze threshold sector unit lint₁).trans
      (sameButLinter_analyze threshold sector unit lint₂).symm
  have hfails (run : Lint) (hrun : run unit.path = none) :
      analyze threshold (some run) sector unit = analyze threshold none sector unit := by
    cases h : Syntax.parse unit.text with
    | error e => exact analyze_eq_of_error threshold sector unit _ h
    | ok tree =>
      have hnothing : outcome? (some run) unit.path = none := hrun
      rw [analyze_eq threshold sector unit _ h, hnothing, Option.elim_none]
  obtain ⟨hscore, hmessages⟩ := analyze_none_unscored threshold sector unit
  refine ⟨fun lint₁ lint₂ => ⟨hsame lint₁ lint₂, (hsame lint₁ lint₂).isConsistent⟩, hfails, ?_,
    hscore, hmessages, ?_⟩
  · intro d command f hrun
    apply hfails
    simp only [hrun, Except.toOption]
  · cases h : Syntax.parse unit.text with
    | error e =>
      intro lint₁ lint₂
      rw [analyze_eq_of_error threshold sector unit lint₁ h,
        analyze_eq_of_error threshold sector unit lint₂ h]
    | ok tree =>
      intro run outcome hrun
      have houtcome : outcome? (some run) unit.path = some outcome := hrun
      rw [analyze_eq threshold sector unit _ h, houtcome, Option.elim_some]
      rfl

end SourceAudit.Audit
