import SourceAudit.Proofs.Report.Record
import SourceAudit.Proofs.Store.Append

/-!
The history in a store. Appends that do not fail add the records of their reports at its end and
change nothing before them, whatever the store held at first, as long as it can be read
(`records_appendAll`). A store that cannot be read loads nothing and holds the last record alone
(`spells_appendAll_not_readable`).
-/

namespace SourceAudit.Store

open SourceAudit.Files (Disk)
open SourceAudit.Files.Disk (SameUse)

/-! ### Histories that can be written and read again -/

/-- The fields of the records are in order, their numbers are those that JSON has, and they nest no
deeper than what is read. -/
structure Regular (history : List Json) : Prop where
  ordered : (Json.arr history).Ordered
  numbers : (Json.arr history).HasJsonNumbers
  depth_le : (Json.arr history).depth ≤ Json.maxDepth

/-- The text of a store is read as its records, but for the last places of doubles. -/
theorem parse?_storeText_reread {history : List Json} (h : Regular history) :
    Json.parse? (storeText history).toList = some (.arr (history.map Json.reread)) := by
  have hblank : ∀ c ∈ ['\n'], Json.isBlank c = true := List.forall_mem_singleton.mpr rfl
  have hread := Json.parse?_prettyAt h.depth_le h.numbers hblank
  rw [Json.sorted_reread_eq h.ordered, Json.reread, Json.rereadList_eq_map] at hread
  simpa [storeText, Json.pretty] using hread

theorem regular_nil : Regular [] :=
  ⟨trivial, ⟨nofun, nofun⟩, by decide⟩

/-- What is read from a store, whatever it holds, can be written again. -/
theorem regular_records (d : Disk) (path : String) : Regular (records d path) := by
  unfold records
  split
  · exact regular_nil
  · unfold recordsOf
    split
    · rename_i history hparse
      have hwell := Json.parse?_wellFormed hparse
      exact ⟨hwell.ordered, Json.parse?_hasJsonNumbers hparse, hwell.depth_le⟩
    · exact regular_nil

/-- A history with a record at its end is ordered and not too deep, if it was before. -/
theorem shape_append {history : List Json} (hordered : (Json.arr history).Ordered)
    (hdepth : (Json.arr history).depth ≤ Json.maxDepth) {r : Report}
    (hr : r.toRecord.depth ≤ 4) :
    (Json.arr (history ++ [r.toRecord])).Ordered ∧
      (Json.arr (history ++ [r.toRecord])).depth ≤ Json.maxDepth := by
  have hle : r.toRecord.depth ≤ 126 := Nat.le_trans hr (by decide)
  constructor
  · exact Json.orderedList_iff.mpr (List.forall_mem_append.mpr
      ⟨Json.orderedList_iff.mp hordered,
        List.forall_mem_singleton.mpr (Json.ordered_sorted r.toJson)⟩)
  · exact Json.depth_arr_le.mpr (List.forall_mem_append.mpr
      ⟨Json.depth_arr_le.mp (show _ ≤ 126 + 1 from hdepth), List.forall_mem_singleton.mpr hle⟩)

theorem Regular.append {history : List Json} (h : Regular history) {r : Report}
    (hr : ∀ n ∈ r.numbers, n < Json.wordLimit) : Regular (history ++ [r.toRecord]) := by
  have hrecord := (Report.isJson_toJson hr).sorted
  obtain ⟨hordered, hdepth⟩ := shape_append h.ordered h.depth_le hrecord.depth_le
  exact ⟨hordered, Json.hasJsonNumbers_append h.numbers hrecord.hasJsonNumbers, hdepth⟩

/-- The fields of the records are in order, their numbers read back, and they nest no deeper than
what is read. -/
structure Sound (history : List Json) : Prop where
  ordered : (Json.arr history).Ordered
  legible : (Json.arr history).Legible
  depth_le : (Json.arr history).depth ≤ Json.maxDepth

theorem sound_nil : Sound [] := ⟨trivial, nofun, by decide⟩

theorem parse?_storeText {history : List Json} (h : Sound history) :
    Json.parse? (storeText history).toList = some (.arr history) := by
  have hread := parse?_storeText_reread ⟨h.ordered, h.legible.hasJsonNumbers, h.depth_le⟩
  rwa [← Json.rereadList_eq_map, ← Json.reread, h.legible.reread_eq_self] at hread

theorem Sound.append {history : List Json} (h : Sound history) {r : Report} (hr : r.Storable) :
    Sound (history ++ [r.toRecord]) := by
  have hrecord := Report.storable_toRecord hr
  obtain ⟨hordered, hdepth⟩ := shape_append h.ordered h.depth_le hrecord.depth_le
  refine ⟨hordered, Json.legible_arr.mpr ?_, hdepth⟩
  exact List.forall_mem_append.mpr
    ⟨Json.legible_arr.mp h.legible, List.forall_mem_singleton.mpr hrecord.scalars⟩

theorem Sound.append_map {history : List Json} (h : Sound history) {rs : List Report}
    (hrs : ∀ r ∈ rs, r.Storable) : Sound (history ++ rs.map Report.toRecord) := by
  induction rs generalizing history with
  | nil => simpa using h
  | cons r rs ih =>
    obtain ⟨hr, hrest⟩ := List.forall_mem_cons.mp hrs
    rw [List.map_cons, List.append_cons]
    exact ih (h.append hr) hrest

/-! ### What a store loads -/

/-- The file of the store spells an array of the records, whether or not it may be read. -/
def Spells (d : Disk) (path : String) (history : List Json) : Prop :=
  ∃ text, d.HoldsText path text ∧ Json.parse? text.toList = some (.arr history)

/-- The store holds an array of records and may be read. -/
def Loads (d : Disk) (path : String) : Prop :=
  ∃ text history, d.readText path = .ok text ∧ Json.parse? text.toList = some (.arr history)

theorem records_eq {d : Disk} {path text : String} {history : List Json}
    (htext : d.readText path = .ok text)
    (hparse : Json.parse? text.toList = some (.arr history)) : records d path = history := by
  simp only [records, htext, recordsOf, hparse]

/-- A store that may be read loads what it spells. -/
theorem Spells.records_eq {d : Disk} {path : String} {history : List Json}
    (h : Spells d path history) (hread : d.Readable path) :
    records d path = history ∧ Loads d path := by
  obtain ⟨text, hholds, hparse⟩ := h
  have htext := Disk.readText_eq_ok.mpr ⟨hholds, hread⟩
  exact ⟨Store.records_eq htext hparse, text, history, htext, hparse⟩

theorem records_of_readText_error {d : Disk} {path : String} {f : Files.Fault}
    (h : d.readText path = .error f) : records d path = [] := by
  simp only [records, h]

theorem records_of_not_loads {d : Disk} {path : String} (h : ¬ Loads d path) :
    records d path = [] := by
  unfold records
  split
  · rfl
  · rename_i text htext
    unfold recordsOf
    split
    · rename_i history hparse
      exact absurd ⟨text, history, htext, hparse⟩ h
    · rfl

/-- A store that may not be read loads nothing, whatever it holds. -/
theorem records_of_not_readable {d : Disk} {path : String} (h : ¬ d.Readable path) :
    records d path = [] :=
  records_of_readText_error (Disk.readText_of_not_readable h)

theorem records_congr {d d' : Disk} {path : String} (huse : SameUse d d')
    (h : d'.entry path = d.entry path) : records d' path = records d path := by
  simp only [records, Disk.readText_congr huse h]

/-! ### Appending -/

/-- An append writes the text of the history, and the file keeps its mode. -/
theorem holdsText_save {m : Machine} {d d' : Disk} {path : String} {history : List Json}
    (h : save m d path history = (d', none)) : d'.HoldsText path (storeText history) := by
  obtain ⟨p, hdone⟩ := save_done h
  exact ⟨p, _, Disk.entry_eq_ok.mpr ⟨hdone.leads, hdone.file⟩⟩

/-- What one append does to any history: doubles apart, the record is added at its end. -/
theorem spells_append_reread {m : Machine} {d d' : Disk} {path : String} {r : Report}
    (h : append m d path r = (d', none)) (hr : ∀ n ∈ r.numbers, n < Json.wordLimit) :
    Spells d' path ((records d path).map Json.reread ++ [r.toRecord.reread]) := by
  have hparse := parse?_storeText_reread ((regular_records d path).append hr)
  rw [List.map_append, List.map_singleton] at hparse
  exact ⟨_, holdsText_save h, hparse⟩

/-- What one append does to a history that can be written and read again. -/
theorem spells_append {m : Machine} {d d' : Disk} {path : String} {r : Report}
    (h : append m d path r = (d', none)) (hold : Sound (records d path)) (hr : r.Storable) :
    Spells d' path (records d path ++ [r.toRecord]) :=
  ⟨_, holdsText_save h, parse?_storeText (hold.append hr)⟩

/-- A failed append changes no record, if the directory of the store is there. -/
theorem records_save_failed {m : Machine} {d d' : Disk} {path : String} {history : List Json}
    {e : Fault} (h : save m d path history = (d', some e))
    (hdir : d.isDirectory (directoryOf path) = true) : records d' path = records d path := by
  obtain ⟨⟨place, entry⟩, hentry⟩ := Disk.entry_of_isDirectory hdir
  simp only [save, makeParents_of_isDirectory m hdir, hentry] at h
  have hspec := replace_spec m d path place (Json.arr history).pretty
  split at h
  · rename_i hreplace
    cases h
    rw [hreplace] at hspec
    obtain ⟨huse, hsame, -⟩ := hspec
    exact records_congr huse (Disk.entry_congr huse hsame path)
  · cases h

/-- Appends a report on a machine; nothing comes of it if that fails. -/
def append? (path : String) (d : Disk) (step : Machine × Report) : Option Disk :=
  match append step.1 d path step.2 with
  | (d', none) => some d'
  | (_, some _) => none

theorem append?_eq_some {path : String} {d d' : Disk} {step : Machine × Report} :
    append? path d step = some d' ↔ append step.1 d path step.2 = (d', none) := by
  unfold append?
  split
  · rename_i h
    simp [h]
  · rename_i h
    simp [h]

/-- Appends reports one after another, each on its own machine; fails if one of them does. -/
def appendAll? (path : String) (d : Disk) (run : List (Machine × Report)) : Option Disk :=
  run.foldlM (append? path) d

theorem appendEach_of_appendAll? {path : String} {d d' : Disk} {run : List (Machine × Report)}
    (h : appendAll? path d run = some d') : appendEach path d run = d' := by
  induction run generalizing d with
  | nil =>
    cases h
    rfl
  | cons step rest ih =>
    simp only [appendAll?, List.foldlM_cons, Option.bind_eq_bind, Option.bind_eq_some_iff,
      append?_eq_some] at h
    obtain ⟨d₁, happend, h⟩ := h
    rw [appendEach, List.foldl_cons, happend]
    exact ih h

/-- If the store can be read after the appends, it could be read after each of them. -/
theorem records_appendAll {path : String} {d d' : Disk} {run : List (Machine × Report)}
    (h : appendAll? path d run = some d') (hread : d'.Readable path)
    (hold : Sound (records d path)) (hrun : ∀ step ∈ run, step.2.Storable) :
    records d' path = records d path ++ run.map (fun step => step.2.toRecord) ∧
      (run ≠ [] → Loads d' path) := by
  induction run generalizing d with
  | nil =>
    cases h
    simp
  | cons step rest ih =>
    simp only [appendAll?, List.foldlM_cons, Option.bind_eq_bind, Option.bind_eq_some_iff,
      append?_eq_some] at h
    obtain ⟨d₁, happend, h⟩ := h
    obtain ⟨hr, hrest⟩ := List.forall_mem_cons.mp hrun
    have hread₁ : d₁.Readable path := by
      rw [← appendEach_of_appendAll? h] at hread
      exact readable_of_appendEach hread
    obtain ⟨hrecords, hloads⟩ := (spells_append happend hold hr).records_eq hread₁
    have hsound : Sound (records d₁ path) := by
      rw [hrecords]
      exact hold.append hr
    obtain ⟨hall, hlast⟩ := ih h hsound hrest
    refine ⟨by simp [hall, hrecords], fun _ => ?_⟩
    cases rest with
    | nil =>
      cases h
      exact hloads
    | cons next rest => exact hlast (by simp)

/-- If the store cannot be read after appends, it loaded nothing before: either it was not there, or
it had the mode that it still has. -/
theorem records_of_appendEach_not_readable {path : String} {d : Disk}
    {run : List (Machine × Report)} (h : ¬ (appendEach path d run).Readable path) :
    records d path = [] := by
  cases hmode : d.mode path with
  | ok mode =>
    rw [readable_appendEach_iff hmode, ← Disk.readable_iff hmode] at h
    exact records_of_not_readable h
  | error f =>
    have hentry : ∃ f, d.entry path = .error f := by
      unfold Disk.mode at hmode
      split at hmode
      · exact ⟨_, ‹_›⟩
      · cases hmode
    obtain ⟨f, hentry⟩ := hentry
    exact records_of_readText_error (Disk.readText_of_entry_error hentry)

/-- Each append to a store that cannot be read starts a new history, so it holds the last report
only. -/
theorem spells_appendAll_not_readable {path : String} {d d' : Disk}
    {run : List (Machine × Report)} {last : Machine × Report}
    (h : appendAll? path d (run ++ [last]) = some d') (hread : ¬ d'.Readable path)
    (hlast : last.2.Storable) : Spells d' path [last.2.toRecord] := by
  simp only [appendAll?, List.foldlM_append, List.foldlM_cons, List.foldlM_nil,
    Option.bind_eq_bind, Option.bind_eq_some_iff, append?_eq_some] at h
  obtain ⟨d₁, -, d₂, happend, hsame⟩ := h
  obtain rfl := Option.some.inj hsame
  have hnone : records d₁ path = [] := by
    rw [← appendEach_singleton happend] at hread
    exact records_of_appendEach_not_readable hread
  have hspells := spells_append happend (by rw [hnone]; exact sound_nil) hlast
  rwa [hnone, List.nil_append] at hspells

theorem filterMap_toRecord (rs : List Report) :
    (rs.map Report.toRecord).filterMap Report.ofJson? = rs.map Report.asStored := by
  induction rs with
  | nil => rfl
  | cons r rs ih => simp [Report.ofJson?_toRecord, ih]

/-- What is read from a store can be written and read again, if its doubles can. -/
theorem sound_records {d : Disk} {path : String}
    (h : ∀ x, .double x ∈ (Json.arr (records d path)).scalars → Json.ReadsBack x) :
    Sound (records d path) := by
  obtain ⟨hordered, hnumbers, hdepth⟩ := regular_records d path
  refine ⟨hordered, ?_, hdepth⟩
  intro s hs
  cases s with
  | int k => exact hnumbers.fitsWord k hs
  | double x => exact h x hs
  | null | bool | str | arr | obj => trivial

/-! ### Stores in a directory -/

/-- A disk whose owner is no superuser, with a file of the given mode and text as the store `s.json`
in the working directory. -/
def storeDisk (mode : Nat) (text : String) : Disk where
  entries := [(["w"], .directory Files.directoryMode), (["w", "s.json"], .file mode text.toUTF8)]
  workingPlace := ["w"]
  guarded := true

theorem entry_storeDisk (mode : Nat) (text : String) :
    (storeDisk mode text).entry "s.json" = .ok (["w", "s.json"], .file mode text.toUTF8) := rfl

theorem mode_storeDisk (mode : Nat) (text : String) :
    (storeDisk mode text).mode "s.json" = .ok mode := rfl

/-- One half. -/
def half : Number.Binary64 := ⟨0x3FE0000000000000⟩

/-- A private store that holds one half, which is no report. -/
def halfStore : Disk := storeDisk 0o600 "[0.5]"

def halfReport : Report :=
  { file := "a.py", sector := .health, syntaxError := none, issues := [],
    metrics := { linesOfCode := 3, qualityScore := some half } }

theorem storable_halfReport : halfReport.Storable := by
  have hhalf : Json.ReadsBack half := rfl
  exact ⟨by decide, by simp [halfReport, hhalf]⟩

/-- A store of a mode that does not let its owner read it. -/
def sealedStore : Disk := storeDisk 0 "[0.5]"

/-- A store with an integer that is too large for a word. -/
def largeStore : Disk := storeDisk 0o600 "[123456789012345678901]"

/-- The double that the integer is read as. -/
def large : Number.Binary64 := ⟨0x441AC53A7E04BCD9⟩

/-- What is appended to a store that its owner may not read is not loaded. -/
theorem records_appendAll_not_granted {path : String} {d d' : Disk} {run : List (Machine × Report)}
    {k : Nat} (h : appendAll? path d run = some d') (hmode : d.mode path = .ok k)
    (hgrants : d.grants Files.readBit k = false) : records d' path = [] := by
  refine records_of_not_readable fun hread => ?_
  rw [← appendEach_of_appendAll? h, readable_appendEach_iff hmode, hgrants] at hread
  cases hread

theorem records_append_granted {path : String} {d d' : Disk} {m : Machine} {r : Report}
    {k : Nat} (h : appendAll? path d [(m, r)] = some d') (hmode : d.mode path = .ok k)
    (hgrants : d.grants Files.readBit k = true) (hr : ∀ n ∈ r.numbers, n < Json.wordLimit) :
    records d' path = (records d path).map Json.reread ++ [r.toRecord.reread] := by
  have hread : d'.Readable path := by
    rw [← appendEach_of_appendAll? h]
    exact (readable_appendEach_iff hmode _).mpr hgrants
  simp only [appendAll?, List.foldlM_cons, List.foldlM_nil, Option.bind_eq_bind,
    Option.bind_eq_some_iff, append?_eq_some] at h
  obtain ⟨d₁, happend, hsame⟩ := h
  obtain rfl := Option.some.inj hsame
  exact ((spells_append_reread happend hr).records_eq hread).1

theorem parse?_large :
    Json.parse? "[123456789012345678901]".toList = some (.arr [.double large]) := by
  have htokens : Json.tokens? "[123456789012345678901]".toList =
      some [.openArray, .double large, .closeArray] := by decide +kernel
  rw [Json.parse?, Json.Document.parse?, htokens]
  rfl

theorem records_largeStore : records largeStore "s.json" = [.double large] := by
  have hread : largeStore.Readable "s.json" := (Disk.readable_iff (mode_storeDisk 0o600 _)).mpr rfl
  have hspells : Spells largeStore "s.json" [.double large] :=
    ⟨_, ⟨_, _, entry_storeDisk 0o600 _⟩, parse?_large⟩
  exact (hspells.records_eq hread).1

/-! ### The history after appends -/

/-- What a run of appends that do not fail makes of a store. If the store can be read after it, it
has its old records and then those of the reports, in order, whatever it held at first; it is read as
the reports among the old records and the new ones; and a store that loads still does. If it cannot,
it loaded nothing before and loads nothing now, and its file spells the last record alone. Assumed is
that doubles read back from their texts and that the numbers of the reports are words. -/
theorem history_after_appends {path : String} {d d' : Disk} {run : List (Machine × Report)}
    (h : appendAll? path d run = some d')
    (hdoubles : ∀ x, .double x ∈ (Json.arr (records d path)).scalars → Json.ReadsBack x)
    (hrun : ∀ step ∈ run, step.2.Storable) :
    (d'.Readable path →
      records d' path = records d path ++ run.map (fun step => step.2.toRecord) ∧
        reports d' path = reports d path ++ run.map (fun step => step.2.asStored) ∧
        (run ≠ [] ∨ Loads d path → Loads d' path) ∧ (¬ Loads d path → records d path = [])) ∧
    (¬ d'.Readable path →
      records d path = [] ∧ records d' path = [] ∧
        ∀ last ∈ run.getLast?, Spells d' path [last.2.toRecord]) := by
  refine ⟨fun hread => ?_, fun hread => ⟨?_, records_of_not_readable hread, ?_⟩⟩
  · obtain ⟨hrecords, hloads⟩ := records_appendAll h hread (sound_records hdoubles) hrun
    refine ⟨hrecords, ?_, ?_, records_of_not_loads⟩
    · have hnew := filterMap_toRecord (run.map Prod.snd)
      simp only [List.map_map, Function.comp_def] at hnew
      simp only [reports, hrecords, List.filterMap_append, hnew]
    · intro hsome
      by_cases hne : run = []
      · subst hne
        cases h
        rcases hsome with hne | hloads
        · exact absurd rfl hne
        · exact hloads
      · exact hloads hne
  · rw [← appendEach_of_appendAll? h] at hread
    exact records_of_appendEach_not_readable hread
  · intro last hlast
    obtain ⟨front, rfl⟩ := List.getLast?_eq_some_iff.mp hlast
    exact spells_appendAll_not_readable h hread (hrun last (by simp))

theorem history_after_append_to_half :
    ∃ d', appendAll? "s.json" halfStore [(.willing, halfReport)] = some d' ∧
      records d' "s.json" = [.double half, halfReport.toRecord] ∧
      reports d' "s.json" = [halfReport] ∧ Loads d' "s.json" := by
  obtain ⟨d', h⟩ : ∃ d', appendAll? "s.json" halfStore [(.willing, halfReport)] = some d' :=
    Option.isSome_iff_exists.mp (by decide +kernel)
  have hrecords : records halfStore "s.json" = [.double half] := rfl
  have hhalf : Json.ReadsBack half := rfl
  have hdoubles : ∀ x, .double x ∈ (Json.arr (records halfStore "s.json")).scalars →
      Json.ReadsBack x := by
    simp [hrecords, Json.scalars, Json.scalarsList, hhalf]
  have hread : d'.Readable "s.json" := by
    rw [← appendEach_of_appendAll? h]
    exact (readable_appendEach_iff (mode_storeDisk 0o600 _) _).mpr rfl
  obtain ⟨hall, hreports, hloads, -⟩ :=
    (history_after_appends h hdoubles (by simp [storable_halfReport])).1 hread
  have hold : reports halfStore "s.json" = [] := rfl
  have hstored : halfReport.asStored = halfReport := rfl
  refine ⟨d', h, ?_, ?_, hloads (.inl (by simp))⟩
  · simpa [hrecords] using hall
  · simpa [hold, hstored] using hreports

/-- An append that does not fail may lose records: what is added to a store of mode zero is not
loaded then, and an integer that is too large for a word is read as a double, which may not read
back from its text. -/
theorem append_loses_records :
    (∃ d', appendAll? "s.json" sealedStore [(.willing, halfReport)] = some d' ∧
      records d' "s.json" ≠ records sealedStore "s.json" ++ [halfReport.toRecord]) ∧
    ∃ d', appendAll? "s.json" largeStore [(.willing, halfReport)] = some d' ∧
      records d' "s.json" ≠ records largeStore "s.json" ++ [halfReport.toRecord] := by
  obtain ⟨d₁, hsealed⟩ : ∃ d', appendAll? "s.json" sealedStore [(.willing, halfReport)] = some d' :=
    Option.isSome_iff_exists.mp (by decide +kernel)
  obtain ⟨d₂, hlarge⟩ : ∃ d', appendAll? "s.json" largeStore [(.willing, halfReport)] = some d' :=
    Option.isSome_iff_exists.mp (by decide +kernel)
  refine ⟨⟨d₁, hsealed, ?_⟩, d₂, hlarge, ?_⟩
  · rw [records_appendAll_not_granted hsealed (mode_storeDisk 0 _) rfl]
    simp
  · have hmoved : Json.rereadDouble large ≠ large := by decide +kernel
    rw [records_append_granted hlarge (mode_storeDisk 0o600 _) rfl (by decide), records_largeStore]
    simp [Json.reread, hmoved]

end SourceAudit.Store
