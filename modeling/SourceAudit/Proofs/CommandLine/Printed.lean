import SourceAudit.Proofs.CommandLine.Analyze

/-!
Reports as they are printed and as they are stored. The one text has the fields in the order of the
report, the other in increasing order, but both are read as the same value: the record of the report,
with its score as it is read from its text (`printed_agrees_with_stored`).
-/

namespace SourceAudit

open SourceAudit.Files (Disk)

namespace Store

/-- The file of the store spells an array that ends with the given value. -/
def EndsWith (d : Disk) (path : String) (last : Json) : Prop :=
  ∃ earlier, Spells d path (earlier ++ [last])

theorem endsWith_append {m : Machine} {d d' : Disk} {path : String} {r : Report}
    (h : append m d path r = (d', none)) (hr : ∀ n ∈ r.numbers, n < Json.wordLimit) :
    EndsWith d' path r.toRecord.reread :=
  ⟨_, spells_append_reread h hr⟩

end Store

namespace CommandLine

/-- What is printed of a report and what is stored of it are the same value. If its score reads back,
or is not finite, this is the record of the report; in any case the file of a store to which the
report has been added ends with it, and so the parsed output of a run that ends with success is the
last element of the parsed store. Assumed is that the numbers of the report are words. -/
theorem printed_agrees_with_stored {r : Report} (hwords : ∀ n ∈ r.numbers, n < Json.wordLimit) :
    Json.parse? r.toJson.pretty.toList = some r.toRecord.reread ∧
    Json.parse? r.jsonText.toList = some r.toRecord.reread ∧
    ((∀ x ∈ r.metrics.qualityScore, x.isFinite → Json.ReadsBack x) →
      r.toRecord.reread = r.toRecord) ∧
    (∀ (m : Store.Machine) (d d' : Disk) (path : String),
      Store.append m d path r = (d', none) → Store.EndsWith d' path r.toRecord.reread) ∧
    ∀ (effect : LintEffect) (env : Environment) (d d' : Disk) (request : AnalyzeRequest)
      (c : Config) (o : Outcome),
      report env d request = .ok (c, r) → request.format = "json" → request.noSave = false →
      runAnalyze effect env d request = (d', o) → o.exitCode = 0 →
      ∃ last, Json.parse? o.stdout.toList = some last ∧
        Store.EndsWith d' (storeOf request c) last := by
  refine ⟨Report.parse?_pretty hwords, Report.parse?_jsonText hwords,
    fun hscore => Report.Storable.reread_toRecord ⟨hwords, hscore⟩,
    fun m d d' path h => Store.endsWith_append h hwords, ?_⟩
  intro effect env d d' request c o hmade hformat hsave hrun hcode
  have hends := ends_runAnalyze effect env d request
  rw [hrun] at hends
  cases hends with
  | refused fault => simp [hmade] at fault
  | unsaved made noSave => simp [hsave] at noSave
  | unstored made save failed => cases hcode
  | saved made save stored =>
    rw [hmade] at made
    cases made
    refine ⟨r.toRecord.reread, ?_, Store.endsWith_append stored hwords⟩
    rw [shownReport, if_pos hformat]
    exact Report.parse?_jsonText hwords

/-- A report with a score, and a store that holds something else. -/
theorem printed_agrees_with_stored_half :
    Json.parse? Store.halfReport.jsonText.toList = some Store.halfReport.toRecord ∧
      ∃ d', Store.append .willing Store.halfStore "s.json" Store.halfReport = (d', none) ∧
        Store.EndsWith d' "s.json" Store.halfReport.toRecord := by
  have hscore : ∀ x ∈ Store.halfReport.metrics.qualityScore, x.isFinite → Json.ReadsBack x := by
    have hhalf : Json.ReadsBack Store.half := rfl
    simp [Store.halfReport, hhalf]
  obtain ⟨-, hjson, hreread, happend, -⟩ :=
    printed_agrees_with_stored (r := Store.halfReport) (by decide)
  rw [hreread hscore] at hjson happend
  have hdone : (Store.append .willing Store.halfStore "s.json" Store.halfReport).2 = none := by
    decide +kernel
  refine ⟨hjson, _, Prod.ext rfl hdone, happend _ _ _ _ (Prod.ext rfl hdone)⟩

end CommandLine
end SourceAudit
