import SourceAudit.CommandLine.Run
import SourceAudit.Proofs.Report.Shown
import SourceAudit.Proofs.Store.History

/-!
The end of an analysis. A run ends with 2 exactly if there is no report to give, for one of the
reasons of `Refused`, and has then done nothing; else it prints the whole report, and ends with 0 or,
if the report was to be stored and could not be, with 3. The files are those after the append, or as
they were (`analyze_outcome`). A store that cannot be read is replaced
(`analyze_replaces_unread_store`).
-/

namespace SourceAudit

open SourceAudit.Files (Disk)

/-! ### Configurations -/

/-- A configuration whose settings can be used. -/
structure Config.Valid (c : Config) : Prop where
  threshold : c.longFunctionThreshold ≠ some 0
  storePath : ∀ s, c.storePath = some s → isBlankText s = false
  linterCommand : ∀ s, c.linter.bind (·.command) = some s → isBlankText s = false

theorem Config.fault?_eq_none {c : Config} : c.fault? = none ↔ c.Valid := by
  have hany (o : Option String) :
      o.any isBlankText = false ↔ ∀ s, o = some s → isBlankText s = false := by
    cases o <;> simp
  unfold fault?
  split
  · rename_i h
    exact ⟨nofun, fun hc => absurd h hc.threshold⟩
  split
  · rename_i h
    refine ⟨nofun, fun hc => ?_⟩
    rw [(hany _).mpr hc.storePath] at h
    cases h
  split
  · rename_i h
    refine ⟨nofun, fun hc => ?_⟩
    rw [(hany _).mpr hc.linterCommand] at h
    cases h
  · rename_i h₁ h₂ h₃
    rw [Bool.not_eq_true] at h₂ h₃
    exact ⟨fun _ => ⟨h₁, (hany _).mp h₂, (hany _).mp h₃⟩, fun _ => rfl⟩

theorem Config.load_eq_ok {d : Disk} {path : String} {c : Config} :
    Config.load d path = .ok c ↔
      ∃ text, d.readText path = .ok text ∧ Config.parse? text.toList = some c := by
  unfold load
  cases htext : d.readText path with
  | error f => simp
  | ok text => cases hparse : Config.parse? text.toList <;> simp [hparse]

namespace CommandLine

/-- Where a configuration is looked for if none is named. -/
def usualPaths : List String := Config.usualNames.map (Files.Path.within ".")

/-- The configuration that a run reads: the named one, the first of those at the usual paths, or the
one without any settings. -/
inductive Configured (d : Disk) : Option String → Config → Prop
  | named {path text : String} {c : Config} (read : d.readText path = .ok text)
      (parsed : Config.parse? text.toList = some c) : Configured d (some path) c
  | found {before after : List String} {path text : String} {c : Config}
      (usual : usualPaths = before ++ path :: after)
      (absent : ∀ p ∈ before, d.isFile p = false) (present : d.isFile path = true)
      (read : d.readText path = .ok text) (parsed : Config.parse? text.toList = some c) :
      Configured d none c
  | defaults (absent : ∀ p ∈ usualPaths, d.isFile p = false) : Configured d none {}

variable {d : Disk}

theorem forall_usualPaths : (∀ p ∈ usualPaths, d.isFile p = false) ↔
    d.isFile "./bugdetect.yaml" = false ∧ d.isFile "./.bugdetect.yaml" = false := by
  have hpaths : usualPaths = ["./bugdetect.yaml", "./.bugdetect.yaml"] := by decide
  simp [hpaths]

theorem discover_eq_none : Config.discover d "." = .ok none ↔ ∀ p ∈ usualPaths, d.isFile p = false := by
  have hfind : usualPaths.find? d.isFile = none ↔ ∀ p ∈ usualPaths, d.isFile p = false := by
    simp
  rw [← hfind]
  unfold Config.discover
  rw [← usualPaths]
  cases hpath : usualPaths.find? d.isFile with
  | none => simp
  | some path => cases hload : Config.load d path <;> simp [hload]

theorem discover_eq_some {path : String} {c : Config} :
    Config.discover d "." = .ok (some (path, c)) ↔
      usualPaths.find? d.isFile = some path ∧ Config.load d path = .ok c := by
  unfold Config.discover
  rw [← usualPaths]
  cases hpath : usualPaths.find? d.isFile with
  | none => simp
  | some p =>
    cases hload : Config.load d p with
    | error f =>
      simp only [hload, reduceCtorEq, Option.some.injEq, false_iff, not_and]
      rintro rfl
      simp [hload]
    | ok c' =>
      simp only [hload, Except.ok.injEq, Option.some.injEq, Prod.mk.injEq]
      constructor
      · rintro ⟨rfl, rfl⟩
        exact ⟨rfl, hload⟩
      · rintro ⟨rfl, hc⟩
        rw [hload] at hc
        cases hc
        exact ⟨rfl, rfl⟩

theorem readConfig_eq_ok {path : Option String} {c : Config} :
    readConfig d path = .ok c ↔ Configured d path c := by
  cases path with
  | some p =>
    have hload : readConfig d (some p) = .ok c ↔ Config.load d p = .ok c := by
      unfold readConfig
      cases hload : Config.load d p <;> simp [hload]
    rw [hload, Config.load_eq_ok]
    constructor
    · rintro ⟨text, hread, hparse⟩
      exact .named hread hparse
    · rintro ⟨hread, hparse⟩
      exact ⟨_, hread, hparse⟩
  | none =>
    have hdiscover : readConfig d none = .ok c ↔
        (Config.discover d "." = .ok none ∧ c = {}) ∨
          ∃ p, Config.discover d "." = .ok (some (p, c)) := by
      unfold readConfig
      cases Config.discover d "." with
      | error f => simp
      | ok o =>
        cases o with
        | none => simp [eq_comm]
        | some pair => simp [Prod.ext_iff]
    rw [hdiscover, discover_eq_none]
    simp only [discover_eq_some, Config.load_eq_ok, List.find?_eq_some_iff_append]
    constructor
    · rintro (⟨habsent, rfl⟩ | ⟨p, ⟨hpresent, before, after, husual, habsent⟩, text, hread, hparse⟩)
      · exact .defaults habsent
      · exact .found husual (by simpa using habsent) hpresent hread hparse
    · rintro (_ | ⟨husual, habsent, hpresent, hread, hparse⟩ | habsent)
      · exact .inr ⟨_, ⟨hpresent, _, _, husual, by simpa using habsent⟩, _, hread, hparse⟩
      · exact .inl ⟨habsent, rfl⟩

/-- A run has a configuration if one can be read, parsed and used. -/
theorem loadConfig_eq_ok {path : Option String} {c : Config} :
    loadConfig d path = .ok c ↔ Configured d path c ∧ c.Valid := by
  rw [← readConfig_eq_ok, ← Config.fault?_eq_none]
  unfold loadConfig
  cases readConfig d path with
  | error f => simp
  | ok c' =>
    cases hfault : c'.fault? with
    | none =>
      simp only [hfault, Except.ok.injEq]
      constructor
      · rintro rfl
        exact ⟨rfl, hfault⟩
      · exact fun h => h.1
    | some f =>
      simp only [hfault, reduceCtorEq, Except.ok.injEq, false_iff, not_and]
      rintro rfl
      simp [hfault]

/-! ### Reports -/

/-- Why a run has no report to give. -/
inductive Refused (d : Disk) (r : AnalyzeRequest) : Prop
  | format (json : r.format ≠ "json") (pretty : r.format ≠ "pretty")
  | threshold (zero : r.threshold = some 0)
  /-- No configuration can be read, parsed and used. -/
  | config (none : ∀ c, Configured d r.config c → ¬ c.Valid)
  /-- The source is missing, cannot be read or is no text. -/
  | source (none : ∀ text, d.readText r.file ≠ .ok text)

/-- The report on a source with the given text. -/
def reportOn (env : Environment) (d : Disk) (r : AnalyzeRequest) (c : Config) (text : String) :
    Report :=
  (Audit.analyze (r.threshold.getD c.threshold) (linterFor env d c r) r.sector
    ⟨r.file, String.ofList (Text.normalizeNewlines text.toList)⟩).stamped env.now

theorem analyzeFile_eq_ok {threshold : Nat} {lint : Option Audit.Lint} {now path : String}
    {sector : Option Audit.Sector} {rep : Report} :
    Audit.analyzeFile d threshold lint now sector path = .ok rep ↔
      ∃ text, d.readText path = .ok text ∧ rep = (Audit.analyze threshold lint sector
        ⟨path, String.ofList (Text.normalizeNewlines text.toList)⟩).stamped now := by
  unfold Audit.analyzeFile Audit.SourceUnit.load
  cases htext : d.readText path with
  | error f => cases d.has path <;> simp
  | ok text =>
    obtain ⟨⟨p, mode, hentry⟩, -⟩ := Disk.readText_eq_ok.mp htext
    simp [Disk.has_of_entry hentry, eq_comm]

theorem AnalyzeRequest.fault?_eq_none {r : AnalyzeRequest} :
    r.fault? = none ↔ (r.format = "json" ∨ r.format = "pretty") ∧ r.threshold ≠ some 0 := by
  unfold fault?
  split
  · rename_i h
    simp [h]
  · rename_i h
    rw [not_and_or, not_not, not_not] at h
    split <;> simp_all

/-- A run gives a report exactly if it is not refused. -/
theorem report_eq_ok {env : Environment} {r : AnalyzeRequest} {c : Config} {rep : Report} :
    report env d r = .ok (c, rep) ↔
      (r.format = "json" ∨ r.format = "pretty") ∧ r.threshold ≠ some 0 ∧
        Configured d r.config c ∧ c.Valid ∧
        ∃ text, d.readText r.file = .ok text ∧ rep = reportOn env d r c text := by
  have hstages : report env d r = .ok (c, rep) ↔ r.fault? = none ∧ loadConfig d r.config = .ok c ∧
      Audit.analyzeFile d (r.threshold.getD c.threshold) (linterFor env d c r) env.now r.sector
        r.file = .ok rep := by
    unfold report
    cases hfault : r.fault? with
    | some f => simp
    | none =>
      cases hconfig : loadConfig d r.config with
      | error f => simp
      | ok c' =>
        cases hfile : Audit.analyzeFile d (r.threshold.getD c'.threshold) (linterFor env d c' r)
            env.now r.sector r.file with
        | error f =>
          simp only [hfile, reduceCtorEq, Except.ok.injEq, true_and, false_iff, not_and]
          rintro rfl
          simp [hfile]
        | ok rep' =>
          simp only [hfile, Except.ok.injEq, Prod.mk.injEq, true_and]
          constructor
          · rintro ⟨rfl, rfl⟩
            exact ⟨rfl, hfile⟩
          · rintro ⟨rfl, h⟩
            rw [hfile] at h
            exact ⟨rfl, Except.ok.inj h⟩
  rw [hstages, AnalyzeRequest.fault?_eq_none, loadConfig_eq_ok, analyzeFile_eq_ok]
  simp only [and_assoc]
  rfl

theorem refused_iff (env : Environment) {r : AnalyzeRequest} :
    Refused d r ↔ ∃ f, report env d r = .error f := by
  have hnone : (∃ f, report env d r = .error f) ↔ ∀ c rep, report env d r ≠ .ok (c, rep) := by
    cases report env d r with
    | error f => simp
    | ok pair =>
      obtain ⟨c, rep⟩ := pair
      simp
  rw [hnone]
  constructor
  · intro h c rep hrep
    obtain ⟨hformat, hthreshold, hconfig, hvalid, text, htext, -⟩ := report_eq_ok.mp hrep
    rcases h with ⟨hjson, hpretty⟩ | hzero | hconfigs | hsource
    · exact hformat.elim hjson hpretty
    · exact hthreshold hzero
    · exact hconfigs c hconfig hvalid
    · exact hsource text htext
  · intro h
    by_contra hrefused
    have hformat : r.format = "json" ∨ r.format = "pretty" := by
      by_contra hne
      exact hrefused (.format (fun hj => hne (.inl hj)) fun hp => hne (.inr hp))
    have hthreshold : r.threshold ≠ some 0 := fun hzero => hrefused (.threshold hzero)
    have hconfig : ∃ c, Configured d r.config c ∧ c.Valid := by
      by_contra hne
      exact hrefused (.config fun c hc hvalid => hne ⟨c, hc, hvalid⟩)
    have hsource : ∃ text, d.readText r.file = .ok text := by
      by_contra hne
      exact hrefused (.source fun text htext => hne ⟨text, htext⟩)
    obtain ⟨c, hc, hvalid⟩ := hconfig
    obtain ⟨text, htext⟩ := hsource
    exact h c _ (report_eq_ok.mpr ⟨hformat, hthreshold, hc, hvalid, text, htext, rfl⟩)

/-! ### Runs -/

/-- Where a run stores its report. -/
def storeOf (r : AnalyzeRequest) (c : Config) : String := r.store.getD c.storePathOrDefault

/-- The ways in which a run can end. -/
inductive Ends (effect : LintEffect) (env : Environment) (d : Disk) (r : AnalyzeRequest) :
    Disk → Outcome → Prop
  | refused {f : AnalyzeFault} (fault : report env d r = .error f) :
      Ends effect env d r d (failure f.message)
  | unsaved {c : Config} {rep : Report} (made : report env d r = .ok (c, rep))
      (noSave : r.noSave = true) :
      Ends effect env d r (Audit.filesAfter (effectFor effect c r) d rep)
        ⟨exitSuccess, shownReport env r.format rep, ""⟩
  | saved {c : Config} {rep : Report} {d' : Disk} (made : report env d r = .ok (c, rep))
      (save : r.noSave = false)
      (stored : Store.append env.machine (Audit.filesAfter (effectFor effect c r) d rep)
        (storeOf r c) rep = (d', none)) :
      Ends effect env d r d' ⟨exitSuccess, shownReport env r.format rep, ""⟩
  | unstored {c : Config} {rep : Report} {d' : Disk} {f : Store.Fault}
      (made : report env d r = .ok (c, rep)) (save : r.noSave = false)
      (failed : Store.append env.machine (Audit.filesAfter (effectFor effect c r) d rep)
        (storeOf r c) rep = (d', some f)) :
      Ends effect env d r d'
        ⟨exitNotStored, shownReport env r.format rep, "Error: " ++ f.message ++ "\n"⟩

theorem ends_runAnalyze (effect : LintEffect) (env : Environment) (d : Disk) (r : AnalyzeRequest) :
    Ends effect env d r (runAnalyze effect env d r).1 (runAnalyze effect env d r).2 := by
  cases hreport : report env d r with
  | error f =>
    simp only [runAnalyze, hreport]
    exact .refused hreport
  | ok pair =>
    obtain ⟨c, rep⟩ := pair
    simp only [runAnalyze, hreport]
    cases hsave : r.noSave with
    | true => exact .unsaved hreport hsave
    | false =>
      rw [if_neg Bool.false_ne_true]
      split
      · rename_i happend
        exact .saved hreport hsave happend
      · rename_i happend
        exact .unstored hreport hsave happend

/-- The linter that writes no files. -/
def readOnly : LintEffect := fun d _ _ => d

theorem filesAfter_readOnly (c : Config) (r : AnalyzeRequest) (d : Disk) (rep : Report) :
    Audit.filesAfter (effectFor readOnly c r) d rep = d := by
  unfold effectFor
  split
  · simp [Audit.filesAfter, readOnly]
  · rfl

/-- The store has the report as its last record: its file is the one that is written for the records
that it loaded and the new one. If it can be read, and doubles read back from their texts, it loads
just these. If it cannot, it loaded nothing before, whatever its file held, and loads nothing now.
Nothing else has changed but for new directories above the store. -/
structure Gains (m : Store.Machine) (d d' : Disk) (path : String) (rep : Report) : Prop where
  text : d'.HoldsText path (Store.storeText (Store.records d path ++ [rep.toRecord]))
  same : d'.Readable path → rep.Storable →
    (∀ x, .double x ∈ (Json.arr (Store.records d path)).scalars → Json.ReadsBack x) →
    Store.records d' path = Store.records d path ++ [rep.toRecord]
  unread : ¬ d'.Readable path → Store.records d path = [] ∧ Store.records d' path = []
  others : ∃ p, Store.Done m d d' path
    (Store.storeText (Store.records d path ++ [rep.toRecord])) p

theorem gains_of_append {m : Store.Machine} {d d' : Disk} {path : String} {rep : Report}
    (h : Store.append m d path rep = (d', none)) : Gains m d d' path rep where
  text := Store.holdsText_save h
  same hread hrep hold :=
    ((Store.spells_append h (Store.sound_records hold) hrep).records_eq hread).1
  unread hread := by
    rw [← Store.appendEach_singleton h] at hread ⊢
    exact ⟨Store.records_of_appendEach_not_readable hread, Store.records_of_not_readable hread⟩
  others := Store.save_done h

/-- What stands in the output of a run that has a report to give: for the one format a text that is
read as the record of the report, and so as the report, for the other one its lines, with or without
colour. -/
structure Shows (env : Environment) (r : AnalyzeRequest) (rep : Report) (output : String) : Prop where
  json : r.format = "json" → output = rep.jsonText ∧
    ((∀ n ∈ rep.numbers, n < Json.wordLimit) →
      Json.parse? output.toList = some rep.toRecord.reread) ∧
    (rep.Storable → (Json.parse? output.toList).bind Report.ofJson? = some rep.asStored)
  pretty : r.format = "pretty" → output = rep.summary env.colour ∧
    (env.colour = false → output = Report.linesText rep.summaryLines) ∧
    (rep.Plain → Report.withoutStyles output.toList = (Report.linesText rep.summaryLines).toList)

theorem shows_shownReport (env : Environment) (r : AnalyzeRequest) (rep : Report) :
    Shows env r rep (shownReport env r.format rep) where
  json hformat := by
    rw [shownReport, if_pos hformat]
    refine ⟨rfl, Report.parse?_jsonText, fun hrep => ?_⟩
    rw [Report.parse?_jsonText hrep.words, hrep.reread_toRecord, Option.bind_some,
      Report.ofJson?_toRecord]
  pretty hformat := by
    rw [shownReport, hformat, if_neg (by decide)]
    refine ⟨rfl, fun hcolour => ?_, fun hplain => Report.withoutStyles_summary hplain _⟩
    rw [hcolour, Report.summary_eq_linesText]

/-- What a run does that has a report to give. It prints the whole report in the format that is
asked for; the store gains the report if it is to be saved and the append succeeds, and the files
are as they were, but for new directories above the store, if not. -/
structure Reported (env : Environment) (d : Disk) (r : AnalyzeRequest) (c : Config) (rep : Report)
    (d' : Disk) (o : Outcome) : Prop where
  stdout : Shows env r rep o.stdout
  unsaved : r.noSave = true → o.exitCode = 0 ∧ d' = d
  saved_iff : r.noSave = false →
    (o.exitCode = 0 ↔ (Store.append env.machine d (storeOf r c) rep).2 = none)
  failed_iff : r.noSave = false →
    (o.exitCode = 3 ↔ ∃ f, (Store.append env.machine d (storeOf r c) rep).2 = some f)
  saved : r.noSave = false → o.exitCode = 0 → Gains env.machine d d' (storeOf r c) rep
  failed : r.noSave = false → o.exitCode = 3 → ∃ f, Store.Failed env.machine d d' (storeOf r c) f

theorem reported_of_ends {env : Environment} {d d' : Disk} {r : AnalyzeRequest} {o : Outcome}
    (h : Ends readOnly env d r d' o) {c : Config} {rep : Report}
    (hmade : report env d r = .ok (c, rep)) : Reported env d r c rep d' o := by
  have hshown : Shows env r rep o.stdout := by
    cases h with
    | refused fault => simp [hmade] at fault
    | unsaved made | saved made | unstored made =>
      rw [hmade] at made
      cases made
      exact shows_shownReport env r rep
  cases h with
  | refused fault => simp [hmade] at fault
  | unsaved made noSave =>
    rw [hmade] at made
    cases made
    rw [filesAfter_readOnly]
    exact ⟨hshown, fun _ => ⟨rfl, rfl⟩, by simp [noSave], by simp [noSave], by simp [noSave],
      by simp [noSave]⟩
  | saved made save stored =>
    rw [hmade] at made
    cases made
    rw [filesAfter_readOnly] at stored
    refine ⟨hshown, by simp [save], ?_, ?_, fun _ _ => gains_of_append stored, ?_⟩
    · simp [stored, exitSuccess]
    · simp [stored, exitSuccess]
    · simp [exitSuccess]
  | unstored made save failed =>
    rw [hmade] at made
    cases made
    rw [filesAfter_readOnly] at failed
    refine ⟨hshown, by simp [save], ?_, ?_, ?_, fun _ _ => ⟨_, Store.save_failed failed⟩⟩
    · simp [failed, exitNotStored]
    · simp [failed, exitNotStored]
    · simp [exitNotStored]

/-! ### A store beside a source -/

/-- A disk whose owner is no superuser, with a store of the given mode and text beside a source. -/
def storeAndSource (mode : Nat) (text : String) : Disk where
  entries := [(["w"], .directory Files.directoryMode), (["w", "s.json"], .file mode text.toUTF8),
    (["w", "a.py"], .file Files.fileMode "x = 1\n".toUTF8)]
  workingPlace := ["w"]
  guarded := true

/-- A run on a machine, with a linter that always fails. -/
def environmentOn (m : Store.Machine) : Environment :=
  { machine := m, lint := fun _ _ _ => none, now := "2024-05-06T07:08:09Z" }

/-- To analyse the source and save the report to the store at a path. -/
def savingTo (path : String) : AnalyzeRequest := { file := "a.py", store := some path }

theorem entry_store (mode : Nat) (text : String) :
    (storeAndSource mode text).entry "s.json" = .ok (["w", "s.json"], .file mode text.toUTF8) := rfl

theorem not_isFile_usualPaths (mode : Nat) (text : String) :
    ∀ p ∈ usualPaths, (storeAndSource mode text).isFile p = false :=
  forall_usualPaths.mpr ⟨rfl, rfl⟩

theorem readText_source (mode : Nat) (text : String) :
    (storeAndSource mode text).readText "a.py" = .ok "x = 1\n" := by
  have hmode : (storeAndSource mode text).mode "a.py" = .ok Files.fileMode := rfl
  exact Disk.readText_eq_ok.mpr ⟨⟨_, _, rfl⟩, (Disk.readable_iff hmode).mpr rfl⟩

/-- The report that the request asks for. -/
def savedReport (m : Store.Machine) (mode : Nat) (text path : String) : Report :=
  reportOn (environmentOn m) (storeAndSource mode text) (savingTo path) {} "x = 1\n"

theorem report_savingTo (m : Store.Machine) (mode : Nat) (text path : String) :
    report (environmentOn m) (storeAndSource mode text) (savingTo path) =
      .ok ({}, savedReport m mode text path) := by
  have hvalid : Config.Valid {} := ⟨by simp, by simp, by simp⟩
  exact report_eq_ok.mpr ⟨.inl rfl, nofun, .defaults (not_isFile_usualPaths mode text), hvalid, _,
    readText_source mode text, rfl⟩

/-- A run that can append its report. -/
theorem runAnalyze_of_append {env : Environment} {d d' : Disk} {r : AnalyzeRequest} {c : Config}
    {rep : Report} (hmade : report env d r = .ok (c, rep)) (hsave : r.noSave = false)
    (happend : Store.append env.machine d (storeOf r c) rep = (d', none)) :
    runAnalyze readOnly env d r = (d', ⟨exitSuccess, shownReport env r.format rep, ""⟩) := by
  rw [storeOf] at happend
  simp only [runAnalyze, hmade, filesAfter_readOnly, hsave, Bool.false_eq_true, if_false, happend]

/-- A run that cannot append its report. -/
theorem runAnalyze_of_append_failed {env : Environment} {d d' : Disk} {r : AnalyzeRequest}
    {c : Config} {rep : Report} {f : Store.Fault} (hmade : report env d r = .ok (c, rep))
    (hsave : r.noSave = false)
    (happend : Store.append env.machine d (storeOf r c) rep = (d', some f)) :
    runAnalyze readOnly env d r =
      (d', ⟨exitNotStored, shownReport env r.format rep, "Error: " ++ f.message ++ "\n"⟩) := by
  rw [storeOf] at happend
  simp only [runAnalyze, hmade, filesAfter_readOnly, hsave, Bool.false_eq_true, if_false, happend]

/-- Any report can be appended to a store that its owner may not read; the store cannot be read then
either, and there is still no configuration. -/
theorem append_sealed (rep : Report) :
    ∃ d', Store.append .willing (storeAndSource 0 "[0.5]") "s.json" rep = (d', none) ∧
      ¬ d'.Readable "s.json" ∧ ∀ p ∈ usualPaths, d'.isFile p = false := by
  have hmode : (storeAndSource 0 "[0.5]").mode "s.json" = .ok 0 := rfl
  have hdone : (Store.append .willing (storeAndSource 0 "[0.5]") "s.json" rep).2 = none := rfl
  refine ⟨_, Prod.ext rfl hdone, ?_, forall_usualPaths.mpr ⟨rfl, rfl⟩⟩
  intro hread
  have hbefore := Store.readable_of_save (Prod.ext rfl hdone) hread
  rw [Disk.readable_iff hmode] at hbefore
  cases hbefore

/-! ### The end of a run -/

/-- How an analysis ends, for every request and all files, with a linter that writes none: with 2
exactly if it is refused, and then without output and effect; else with the whole report printed, and
with 0 or 3. -/
theorem analyze_outcome (env : Environment) (d : Disk) (r : AnalyzeRequest) :
    match runAnalyze readOnly env d r with
    | (d', o) =>
      (o.exitCode = 0 ∨ o.exitCode = 2 ∨ o.exitCode = 3) ∧ (o.exitCode = 2 ↔ Refused d r) ∧
      (Refused d r → o.stdout = "" ∧ d' = d) ∧
      (¬ Refused d r → ∃ c text, Configured d r.config c ∧ c.Valid ∧
        d.readText r.file = .ok text ∧ Reported env d r c (reportOn env d r c text) d' o) := by
  have hends := ends_runAnalyze readOnly env d r
  generalize runAnalyze readOnly env d r = p at hends
  obtain ⟨d', o⟩ := p
  dsimp only at hends ⊢
  cases hreport : report env d r with
  | error f =>
    have hrefused : Refused d r := (refused_iff env).mpr ⟨f, hreport⟩
    cases hends with
    | refused fault =>
      exact ⟨.inr (.inl rfl), ⟨fun _ => hrefused, fun _ => rfl⟩, fun _ => ⟨rfl, rfl⟩,
        fun h => absurd hrefused h⟩
    | unsaved made | saved made | unstored made => simp [hreport] at made
  | ok pair =>
    obtain ⟨c, rep⟩ := pair
    have hnot : ¬ Refused d r := by
      intro h
      obtain ⟨f, hf⟩ := (refused_iff env).mp h
      simp [hreport] at hf
    have hreported := reported_of_ends hends hreport
    obtain ⟨-, -, hconfig, hvalid, text, htext, rfl⟩ := report_eq_ok.mp hreport
    have hcode : o.exitCode = 0 ∨ o.exitCode = 3 := by
      cases hends with
      | refused fault => simp [hreport] at fault
      | unsaved | saved => exact .inl rfl
      | unstored => exact .inr rfl
    refine ⟨by omega, ⟨fun h => by omega, fun h => absurd h hnot⟩, fun h => absurd h hnot,
      fun _ => ⟨c, text, hconfig, hvalid, htext, hreported⟩⟩

/-- A run can end with success and add nothing that is loaded, and take away what the file of the
store held: if the permission bits of the store do not let its owner read it. -/
theorem analyze_replaces_unread_store :
    ∃ d' o rep,
      report (environmentOn .willing) (storeAndSource 0 "[0.5]") (savingTo "s.json") = .ok ({}, rep) ∧
      runAnalyze readOnly (environmentOn .willing) (storeAndSource 0 "[0.5]") (savingTo "s.json") =
        (d', o) ∧ o.exitCode = 0 ∧
      (storeAndSource 0 "[0.5]").HoldsText "s.json" "[0.5]" ∧
      d'.HoldsText "s.json" (Store.storeText [rep.toRecord]) ∧
      Store.records d' "s.json" ≠
        Store.records (storeAndSource 0 "[0.5]") "s.json" ++ [rep.toRecord] := by
  have hmade := report_savingTo .willing 0 "[0.5]" "s.json"
  generalize savedReport .willing 0 "[0.5]" "s.json" = rep at hmade
  obtain ⟨d', happend, hsealed, -⟩ := append_sealed rep
  have hholds : (storeAndSource 0 "[0.5]").HoldsText "s.json" "[0.5]" :=
    ⟨_, _, entry_store 0 "[0.5]"⟩
  generalize storeAndSource 0 "[0.5]" = d at hmade happend hholds ⊢
  have hrun := runAnalyze_of_append hmade rfl happend
  have hgains := gains_of_append happend
  obtain ⟨hbefore, hnone⟩ := hgains.unread hsealed
  refine ⟨d', _, rep, hmade, hrun, rfl, hholds, ?_, ?_⟩
  · have htext := hgains.text
    rwa [hbefore, List.nil_append] at htext
  · rw [hbefore, hnone]
    exact List.ne_cons_self

end CommandLine
end SourceAudit
