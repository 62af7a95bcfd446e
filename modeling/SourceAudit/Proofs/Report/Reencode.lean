import SourceAudit.Proofs.Number.Binary64
import SourceAudit.Proofs.Report.Record

/-!
Records that are read and written again. A report comes back from its record, but for a score that
is not finite; and what was read from a record of any shape comes back whole, since JSON has no
number that is not finite (`decode_encode`). So writing a record again settles at once
(`reencode?`).
-/

namespace SourceAudit

open SourceAudit.Audit (Metrics)
open SourceAudit.Number (Binary64)

namespace Json

/-! ### Numbers of JSON values -/

/-- A number is read as a finite double. -/
theorem isFinite_double? {v s : Json} (hv : v.HasJsonNumbers) (hs : s ∈ v.scalars) {x : Binary64}
    (h : double? s = some x) : x.isFinite = true := by
  cases s with
  | int n =>
    cases h
    obtain ⟨hlow, hhigh⟩ := hv.fitsWord n hs
    have hlimit : wordLimit = 2 ^ 64 := by decide
    have hleast : (1 <<< 63 : Nat) = 2 ^ 63 := by decide
    apply Binary64.isFinite_ofInt
    omega
  | double y =>
    cases h
    exact hv.isFinite x hs
  | null | bool | str | arr | obj => cases h

/-! ### What is read from a record -/

/-- A member of a record has no scalars that the record does not have. -/
theorem scalars_get?_subset {v j : Json} {arity place : Nat} {name : String} {m : Members}
    (hm : v.members? arity = some m) (hj : m.get? place name = some j) :
    j.scalars ⊆ v.scalars := by
  unfold members? at hm
  split at hm
  · rename_i fields
    cases hm
    simp only [Members.get?, field?, Option.map_eq_some_iff] at hj
    obtain ⟨f, hf, rfl⟩ := hj
    intro s hs
    exact mem_scalarsFields.mpr ⟨f, List.mem_of_find?_eq_some hf, hs⟩
  · rename_i elements
    split at hm
    · cases hm
      intro s hs
      exact mem_scalarsList.mpr ⟨j, List.mem_of_getElem? hj, hs⟩
    · cases hm
  · cases hm

theorem scalars_of_double? {j : Json} {x : Binary64} (h : double? j = some x) : j ∈ j.scalars := by
  unfold double? at h
  split at h
  · simp [scalars]
  · simp [scalars]
  · cases h

end Json

open Json (Members)

theorem Audit.Metrics.ofJson?_score {j : Json} {m : Metrics} {x : Binary64}
    (h : Metrics.ofJson? j = some m) (hx : m.qualityScore = some x) :
    ∃ s ∈ j.scalars, Json.double? s = some x := by
  simp only [Metrics.ofJson?, Option.bind_eq_bind, Option.bind_eq_some_iff, Option.pure_def,
    Option.some.injEq] at h
  obtain ⟨members, hmembers, lines, -, markers, -, issues, -, score, hscore, rfl⟩ := h
  obtain rfl : score = some x := hx
  unfold Members.optional at hscore
  split at hscore
  · cases hscore
  · cases hscore
  · rename_i s _ hget
    obtain ⟨y, hy, hxy⟩ := Option.map_eq_some_iff.mp hscore
    cases hxy
    have hsubset := Json.scalars_get?_subset hmembers hget
    exact ⟨s, hsubset (Json.scalars_of_double? hy), hy⟩

namespace Report

/-- The score of a report that was read is a number of the record. -/
theorem ofJson?_score {v : Json} {r : Report} {x : Binary64} (h : Report.ofJson? v = some r)
    (hx : r.metrics.qualityScore = some x) : ∃ s ∈ v.scalars, Json.double? s = some x := by
  simp only [Report.ofJson?, Option.bind_eq_bind, Option.bind_eq_some_iff, Option.pure_def,
    Option.some.injEq] at h
  obtain ⟨members, hmembers, file, -, sector, -, error, -, issues, -, metrics, hmetrics, time, -,
    external, -, rfl⟩ := h
  obtain ⟨j, hget, hj⟩ := Option.bind_eq_some_iff.mp hmetrics
  obtain ⟨s, hs, hdouble⟩ := Metrics.ofJson?_score hj hx
  exact ⟨s, Json.scalars_get?_subset hmembers hget hs, hdouble⟩

theorem asStored_eq_self {r : Report}
    (h : ∀ x, r.metrics.qualityScore = some x → x.isFinite = true) : r.asStored = r := by
  have hscore : r.metrics.qualityScore.filter Binary64.isFinite = r.metrics.qualityScore := by
    cases hx : r.metrics.qualityScore with
    | none => rfl
    | some x => simp [Option.filter, h x hx]
  simp only [asStored, Metrics.asStored, hscore]

theorem asStored_asStored (r : Report) : r.asStored.asStored = r.asStored := by
  apply asStored_eq_self
  intro x hx
  exact (Option.mem_filter_iff.mp hx).2

/-- Nothing of a report that was read is lost when it is stored. -/
theorem asStored_of_ofJson? {v : Json} {r : Report} (h : Report.ofJson? v = some r)
    (hv : v.HasJsonNumbers) : r.asStored = r := by
  apply asStored_eq_self
  intro x hx
  obtain ⟨s, hs, hdouble⟩ := ofJson?_score h hx
  exact Json.isFinite_double? hv hs hdouble

/-- Reads a record as a report and writes it again. -/
def reencode? (v : Json) : Option Json := (Report.ofJson? v).map toRecord

theorem reencode?_toRecord (r : Report) : reencode? r.toRecord = some r.asStored.toRecord := by
  rw [reencode?, ofJson?_toRecord, Option.map_some]

/-- Decoding undoes encoding. The record of a report is read as the report, but for a score that is
not finite, which is lost. A report that was itself read, from a value with any other fields and
with fields left out or null, is read again from its own record in the same way; if the value has
only numbers that JSON has, as every value that a text spells, nothing is lost, and writing the
record again gives the same record; and in any case from the second time on. -/
theorem decode_encode :
    (∀ r : Report, Report.ofJson? r.toRecord =
      some { r with
        metrics :=
          { r.metrics with
            qualityScore := r.metrics.qualityScore.filter Binary64.isFinite } }) ∧
    (∀ (v : Json) (r : Report), Report.ofJson? v = some r →
      Report.ofJson? r.toRecord =
        some { r with
          metrics :=
            { r.metrics with
              qualityScore := r.metrics.qualityScore.filter Binary64.isFinite } } ∧
      (v.HasJsonNumbers →
        Report.ofJson? r.toRecord = some r ∧ reencode? r.toRecord = some r.toRecord) ∧
      ∃ w, reencode? r.toRecord = some w ∧ reencode? w = some w) ∧
    ∀ (text : List Char) (v : Json), Json.parse? text = some v → v.HasJsonNumbers := by
  refine ⟨ofJson?_toRecord, ?_, fun text v => Json.parse?_hasJsonNumbers⟩
  intro v r h
  refine ⟨ofJson?_toRecord r, ?_, ?_⟩
  · intro hv
    have hself := asStored_of_ofJson? h hv
    rw [ofJson?_toRecord, reencode?_toRecord, hself]
    exact ⟨rfl, rfl⟩
  · refine ⟨_, reencode?_toRecord r, ?_⟩
    rw [reencode?_toRecord, asStored_asStored]

end Report
end SourceAudit
