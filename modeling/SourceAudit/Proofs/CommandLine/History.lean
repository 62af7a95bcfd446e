import SourceAudit.Proofs.CommandLine.Analyze
import SourceAudit.Proofs.Store.Concurrent

/-!
The history after a session. However many analyses have been run against one store, and however they
have ended, the table of its reports lists those that were there at first and then those that have
been saved, in order, up to the limit that is asked for, as long as the store can be read, no linter
changes it, and no failed run opens a way to another store (`history_shows_saved`). Without these the
two can differ (`history_differs_from_saved`).
-/

namespace SourceAudit

open SourceAudit.Files (Disk)

/-! ### The table of reports -/

namespace Report

theorem showSpans_flatMap {α : Type} (colour : Bool) (f : α → List Span) (xs : List α) :
    showSpans colour (xs.flatMap f) = String.join (xs.map fun x => showSpans colour (f x)) := by
  induction xs with
  | nil => rfl
  | cons x xs ih => rw [List.flatMap_cons, showSpans_append, ih, List.map_cons, String.join_cons]

/-- The first line of the table. -/
def tableHeader (colour : Bool) (count : Nat) : String :=
  showSpans colour
    [text "  ", styled .bold "Reports", text (" (" ++ toString count ++ "):"), newline]

/-- A line of the table before what it says of the report: time, sector and path. -/
def rowStart (colour : Bool) (r : Report) : String :=
  showSpans colour [text "    ", column .dim 22 (r.analyzedOn.getD "-"),
    column .plain 13 r.sector.label, styled .blue r.file]

/-- The words for a syntax error. -/
def errorWords (colour : Bool) : String := showSpans colour [styled .red "syntax error"]

/-- The line of the table for a report: it has the words for a syntax error at its end exactly if the
report has one, and else the number of findings. -/
structure IsRow (colour : Bool) (r : Report) (line : String) : Prop where
  error : r.syntaxError.isSome → line = rowStart colour r ++ "  " ++ errorWords colour ++ "\n"
  count : r.syntaxError = none →
    line = rowStart colour r ++ "  " ++ toString r.issues.length ++ " issue(s)\n"
  error_iff : (∃ front, line = front ++ errorWords colour ++ "\n") ↔ r.syntaxError.isSome

/-- The characters at the end of the two kinds of lines differ. -/
theorem errorWords_ne (colour : Bool) (front other : String) :
    front ++ errorWords colour ++ "\n" ≠ other ++ " issue(s)\n" := by
  intro h
  have hlast := congrArg (fun s : String => s.toList.reverse.take 2) h
  cases colour <;>
    simp [errorWords, showSpans, styled, Span.render, padTo, restyle, resetSequence] at hlast

theorem isRow_historyRow (colour : Bool) (r : Report) :
    IsRow colour r (showSpans colour (historyRow r)) := by
  have hstart (rest : List Span) : showSpans colour ([text "    ",
      column .dim 22 (r.analyzedOn.getD "-"), column .plain 13 r.sector.label,
      styled .blue r.file] ++ rest) = rowStart colour r ++ showSpans colour rest :=
    showSpans_append colour _ rest
  unfold historyRow hasSyntaxError
  rw [hstart]
  cases herror : r.syntaxError with
  | none =>
    have hline : rowStart colour r ++ showSpans colour
        [text ("  " ++ number r.issues.length ++ " issue(s)"), newline] =
        rowStart colour r ++ "  " ++ toString r.issues.length ++ " issue(s)\n" := by
      simp only [newline, showSpans_text_cons, showSpans_nil, number, String.append_assoc]
      rfl
    rw [Option.isSome_none, if_neg Bool.false_ne_true, hline]
    refine ⟨by simp [herror], fun _ => rfl, ?_⟩
    rw [herror, Option.isSome_none]
    refine ⟨?_, fun h => absurd h Bool.false_ne_true⟩
    rintro ⟨front, h⟩
    exact absurd h.symm (errorWords_ne colour front _)
  | some e =>
    have hline : rowStart colour r ++ showSpans colour
        [text "  ", styled .red "syntax error", newline] =
        rowStart colour r ++ "  " ++ errorWords colour ++ "\n" := by
      rw [showSpans_text_cons, ← List.singleton_append, showSpans_append, newline,
        showSpans_text_cons, showSpans_nil]
      simp only [errorWords, String.append_assoc, String.append_empty]
    rw [Option.isSome_some, if_pos rfl, hline]
    exact ⟨fun _ => rfl, by simp [herror], fun _ => by simp [herror], fun _ => ⟨_, rfl⟩⟩

theorem latest_suffix (limit : Option Nat) (rs : List Report) : latest limit rs <:+ rs := by
  cases limit with
  | none => exact List.suffix_refl rs
  | some n => exact List.drop_suffix _ _

theorem length_latest (limit : Option Nat) (rs : List Report) :
    (latest limit rs).length = (limit.map fun n => min n rs.length).getD rs.length := by
  cases limit with
  | none => rfl
  | some n =>
    simp only [latest, List.length_drop, Option.map_some, Option.getD_some]
    omega

theorem history_eq (colour : Bool) (limit : Option Nat) (rs : List Report) :
    history colour limit rs = tableHeader colour rs.length ++ "\n" ++
      String.join ((latest limit rs).map fun r => showSpans colour (historyRow r)) := by
  have hheader : tableHeader colour rs.length = showSpans colour (heading "Reports" rs.length) := rfl
  rw [history, historySpans, showSpans_append, showSpans_append, showSpans_flatMap, hheader, newline,
    showSpans_text_cons, showSpans_nil, String.append_empty]

/-- The table does not depend on what its lines do not show. -/
theorem history_congr {colour : Bool} {limit : Option Nat} {rs rs' : List Report}
    (h : rs.map historyRow = rs'.map historyRow) :
    history colour limit rs = history colour limit rs' := by
  have hlength : rs.length = rs'.length := by
    simpa using congrArg List.length h
  have hlatest : (latest limit rs).map historyRow = (latest limit rs').map historyRow := by
    cases limit with
    | none => exact h
    | some n => simp only [latest, List.map_drop, h, hlength]
  unfold history historySpans
  rw [List.flatMap_def, List.flatMap_def, hlatest, hlength]

end Report

namespace CommandLine

/-- What is printed of a history: a table whose header has the number of its reports and whose lines
are those of the last of them, up to the limit, or that there are none. -/
structure HistoryShown (colour : Bool) (limit : Option Nat) (path : String) (all : List Report)
    (o : Outcome) : Prop where
  exitCode : o.exitCode = 0
  stderr : o.stderr = ""
  none_iff : o.stdout = "No reports in " ++ path ++ "\n" ↔ all.length = 0
  table : all.length ≠ 0 → ∃ shown lines, shown <:+ all ∧
    shown.length = (limit.map fun n => min n all.length).getD all.length ∧
    List.Forall₂ (Report.IsRow colour) shown lines ∧
    o.stdout = "\n" ++ Report.tableHeader colour all.length ++ "\n" ++ String.join lines ++ "\n"

theorem historyShown_runHistory {env : Environment} {d : Disk} {request : HistoryRequest}
    {c : Config} {path : String} {all : List Report} (hconfig : Configured d request.config c)
    (hvalid : c.Valid) (hpath : request.store.getD c.storePathOrDefault = path)
    (hrows : (Store.reports d path).map Report.historyRow = all.map Report.historyRow) :
    HistoryShown env.colour request.limit path all (runHistory env d request) := by
  have hlength : (Store.reports d path).length = all.length := by
    simpa using congrArg List.length hrows
  unfold runHistory
  simp only [loadConfig_eq_ok.mpr ⟨hconfig, hvalid⟩, hpath]
  split
  · rename_i hempty
    have hzero : all.length = 0 := by
      rw [← hlength, List.isEmpty_iff.mp hempty, List.length_nil]
    exact ⟨rfl, rfl, ⟨fun _ => hzero, fun _ => rfl⟩, fun h => absurd hzero h⟩
  · rename_i hne
    have hnonzero : all.length ≠ 0 := by
      rw [← hlength]
      simpa using hne
    rw [Report.history_congr hrows, Report.history_eq]
    refine ⟨rfl, rfl, ⟨fun h => ?_, fun h => absurd h hnonzero⟩, fun _ => ?_⟩
    · -- the table starts with the end of a line
      have hfirst := congrArg (fun s : String => s.toList.head?) h
      simp at hfirst
    · have hlines : List.Forall₂ (Report.IsRow env.colour) (Report.latest request.limit all)
          ((Report.latest request.limit all).map fun r =>
            Report.showSpans env.colour r.historyRow) := by
        rw [List.forall₂_map_right_iff, List.forall₂_same]
        exact fun r _ => Report.isRow_historyRow env.colour r
      exact ⟨_, _, Report.latest_suffix request.limit all, Report.length_latest request.limit all,
        hlines, by simp only [String.append_assoc]⟩

/-! ### Sessions -/

/-- The reports that a run saves: its own, if it ends with success and is to save it. -/
def savedBy (effect : LintEffect) (env : Environment) (d : Disk) (r : AnalyzeRequest) :
    List Report :=
  match report env d r with
  | .error _ => []
  | .ok (_, rep) =>
    if (runAnalyze effect env d r).2.exitCode = exitSuccess ∧ r.noSave = false then [rep] else []

theorem savedBy_of_append {env : Environment} {d d' : Disk} {r : AnalyzeRequest} {c : Config}
    {rep : Report} (hmade : report env d r = .ok (c, rep)) (hsave : r.noSave = false)
    (happend : Store.append env.machine d (storeOf r c) rep = (d', none)) :
    savedBy readOnly env d r = [rep] := by
  simp [savedBy, hmade, hsave, runAnalyze_of_append hmade hsave happend]

/-- Directories that are made above the store open no way to another store: that of the store is
there, or the path goes down only and all entries stand in directories, or what is loaded does not
hang on them for another reason. -/
def OpensNoWay (d : Disk) (path : String) : Prop :=
  d.isDirectory (Store.directoryOf path) = true ∨
    (d.Rooted ∧ ['.', '.'] ∉ Files.Path.parts path) ∨ Store.Settled d path

/-- A failed append that opens no way to another store changes no record. -/
theorem records_of_append_failed {m : Store.Machine} {d d' : Disk} {path : String} {rep : Report}
    {f : Store.Fault} (h : Store.append m d path rep = (d', some f)) (hway : OpensNoWay d path) :
    Store.records d' path = Store.records d path := by
  have hgrows := (Store.save_failed h).grows
  rcases hway with hdir | ⟨hrooted, hdown⟩ | hsettled
  · exact Store.records_save_failed h hdir
  · exact Store.settled_of_goesDown hrooted hdown d' hgrows
  · exact hsettled d' hgrows

/-- The store loads what it loaded, and could be read before if it can be now. -/
structure KeepsStore (path : String) (d d' : Disk) : Prop where
  records : Store.records d' path = Store.records d path
  readable : d'.Readable path → d.Readable path

theorem KeepsStore.refl (path : String) (d : Disk) : KeepsStore path d d := ⟨rfl, id⟩

/-- The run is about the store at the path: if it is to save its report, then there, and its linter
keeps the store. If the run fails to save the report, the directories that it may have made open no
way to another store. -/
structure Against (path : String) (effect : LintEffect) (env : Environment) (d : Disk)
    (r : AnalyzeRequest) : Prop where
  store : ∀ c rep, report env d r = .ok (c, rep) → r.noSave = false → storeOf r c = path
  linter : ∀ c rep, report env d r = .ok (c, rep) →
    KeepsStore path d (Audit.filesAfter (effectFor effect c r) d rep)
  failed : ∀ c rep, report env d r = .ok (c, rep) →
    (runAnalyze effect env d r).2.exitCode = exitNotStored →
    OpensNoWay (Audit.filesAfter (effectFor effect c r) d rep) path

/-- Runs against one store, one after another, with the reports that they have saved. Each has its
own request, machine, linter and time; between them anything may change that keeps the store. -/
inductive Session (path : String) (d₀ : Disk) : List Report → Disk → Prop
  | start : Session path d₀ [] d₀
  | edited {saved : List Report} {d d' : Disk} (before : Session path d₀ saved d)
      (keeps : KeepsStore path d d') : Session path d₀ saved d'
  | analyzed {saved : List Report} {d : Disk} (before : Session path d₀ saved d)
      (effect : LintEffect) (env : Environment) (r : AnalyzeRequest)
      (against : Against path effect env d r) :
      Session path d₀ (saved ++ savedBy effect env d r) (runAnalyze effect env d r).1

/-- A store that can be read after a run could be read before, or was not there. -/
theorem readable_of_runAnalyze {path : String} {effect : LintEffect} {env : Environment} {d : Disk}
    {r : AnalyzeRequest} (h : Against path effect env d r)
    (hread : (runAnalyze effect env d r).1.Readable path) : d.Readable path := by
  have hends := ends_runAnalyze effect env d r
  obtain ⟨hstore, hlinter, -⟩ := h
  generalize runAnalyze effect env d r = run at hends hread
  obtain ⟨d', o⟩ := run
  dsimp only at hends hread
  cases hends with
  | refused fault => exact hread
  | unsaved made noSave => exact (hlinter _ _ made).readable hread
  | saved made save stored =>
    rw [hstore _ _ made save] at stored
    exact (hlinter _ _ made).readable (Store.readable_of_save stored hread)
  | unstored made save failed =>
    rw [hstore _ _ made save] at failed
    exact (hlinter _ _ made).readable (Store.readable_of_save failed hread)

/-- One run adds the records of the reports that it saves to the store, and nothing else, if the
store can be read then. -/
theorem records_runAnalyze {path : String} {effect : LintEffect} {env : Environment} {d : Disk}
    {r : AnalyzeRequest} (h : Against path effect env d r)
    (hread : (runAnalyze effect env d r).1.Readable path)
    (hold : Store.Sound (Store.records d path))
    (hsaved : ∀ rep ∈ savedBy effect env d r, rep.Storable) :
    Store.records (runAnalyze effect env d r).1 path =
      Store.records d path ++ (savedBy effect env d r).map Report.toRecord := by
  have hends := ends_runAnalyze effect env d r
  obtain ⟨hstore, hlinter, hfailed⟩ := h
  unfold savedBy at hsaved ⊢
  generalize runAnalyze effect env d r = run at hends hread hfailed hsaved ⊢
  obtain ⟨d', o⟩ := run
  dsimp only at hends hread hfailed hsaved ⊢
  cases hends with
  | refused fault => simp [fault]
  | unsaved made noSave => simp [made, noSave, (hlinter _ _ made).records]
  | saved made save stored =>
    rw [hstore _ _ made save] at stored
    simp only [made, save, and_self, if_true, List.forall_mem_singleton] at hsaved ⊢
    rw [← (hlinter _ _ made).records] at hold ⊢
    exact ((Store.spells_append stored hold hsaved).records_eq hread).1
  | unstored made save failed =>
    rw [hstore _ _ made save] at failed
    rw [← (hlinter _ _ made).records]
    simp only [made, exitNotStored, exitSuccess, OfNat.ofNat_ne_zero, false_and, if_false,
      List.map_nil, List.append_nil]
    exact records_of_append_failed failed (hfailed _ _ made rfl)

/-- A session adds the records of the reports that its runs save, in order, if the store can be read
after it. -/
theorem Session.records {path : String} {d₀ d : Disk} {saved : List Report}
    (h : Session path d₀ saved d) (hread : d.Readable path)
    (hold : Store.Sound (Store.records d₀ path)) (hsaved : ∀ rep ∈ saved, rep.Storable) :
    Store.records d path = Store.records d₀ path ++ saved.map Report.toRecord := by
  induction h with
  | start => simp
  | edited _ keeps ih =>
    rw [keeps.records]
    exact ih (keeps.readable hread) hsaved
  | @analyzed saved d _ effect env r against ih =>
    obtain ⟨hbefore, hrun⟩ := List.forall_mem_append.mp hsaved
    have hrecords := ih (readable_of_runAnalyze against hread) hbefore
    have hsound : Store.Sound (Store.records d path) := by
      rw [hrecords]
      exact hold.append_map hbefore
    rw [records_runAnalyze against hread hsound hrun, hrecords, List.map_append, List.append_assoc]

/-! ### Runs in a directory -/

/-- One half, which is no report, and a report. -/
def reportRecords : List Json := [.double Store.half, Store.halfReport.toRecord]

/-- A private store with these records, beside a source. -/
def reportStore : Disk := storeAndSource 0o600 (Store.storeText reportRecords)

theorem sound_reportRecords : Store.Sound reportRecords := by
  have hhalf : Json.ReadsBack Store.half := rfl
  have hlegible : (Json.double Store.half).Legible := by
    simp [Json.Legible, Json.scalars, Json.Faithful, hhalf]
  have hstored : Store.Sound [.double Store.half] :=
    ⟨Json.orderedList_iff.mpr (List.forall_mem_singleton.mpr trivial),
      Json.legible_arr.mpr (List.forall_mem_singleton.mpr hlegible), by decide⟩
  exact hstored.append ⟨by decide, by simp [Store.halfReport, hhalf]⟩

theorem mode_reportStore : reportStore.mode "s.json" = .ok 0o600 := rfl

theorem readable_reportStore : reportStore.Readable "s.json" :=
  (Disk.readable_iff mode_reportStore).mpr rfl

theorem isDirectory_reportStore : reportStore.isDirectory (Store.directoryOf "s.json") = true := rfl

theorem records_of_holdsText {d : Disk} {path : String}
    (h : d.HoldsText path (Store.storeText reportRecords)) (hread : d.Readable path) :
    Store.records d path = reportRecords ∧ Store.reports d path = [Store.halfReport] := by
  have hspells : Store.Spells d path reportRecords :=
    ⟨_, h, Store.parse?_storeText sound_reportRecords⟩
  have hrecords := (hspells.records_eq hread).1
  refine ⟨hrecords, ?_⟩
  rw [Store.reports, hrecords]
  rfl

theorem records_reportStore : Store.records reportStore "s.json" = reportRecords ∧
    Store.reports reportStore "s.json" = [Store.halfReport] :=
  records_of_holdsText ⟨_, _, entry_store 0o600 _⟩ readable_reportStore

/-- A run that names its store, in a directory that is there, with a linter that writes no files. -/
theorem against_readOnly {path : String} {env : Environment} {d : Disk} {r : AnalyzeRequest}
    (hstore : r.store = some path) (hdir : d.isDirectory (Store.directoryOf path) = true) :
    Against path readOnly env d r := by
  refine ⟨fun c rep _ _ => by rw [storeOf, hstore, Option.getD_some], fun c rep _ => ?_,
    fun c rep _ _ => ?_⟩
  · rw [filesAfter_readOnly]
    exact .refl path d
  · rw [filesAfter_readOnly]
    exact .inl hdir

/-- Runs that save nothing: one is refused, one is not to save, and one cannot. -/
def idleRuns : List (Environment × AnalyzeRequest) :=
  [(environmentOn .willing, { savingTo "s.json" with format := "xml" }),
    (environmentOn .willing, { savingTo "s.json" with noSave := true }),
    (environmentOn Store.fixedMachine, savingTo "s.json")]

/-- The disk after runs, one after another, with linters that write no files. -/
def diskAfterRuns (d : Disk) (runs : List (Environment × AnalyzeRequest)) : Disk :=
  runs.foldl (fun d run => (runAnalyze readOnly run.1 d run.2).1) d

theorem diskAfterRuns_concat (d : Disk) (runs : List (Environment × AnalyzeRequest))
    (run : Environment × AnalyzeRequest) :
    diskAfterRuns d (runs ++ [run]) =
      (runAnalyze readOnly run.1 (diskAfterRuns d runs) run.2).1 := by
  simp [diskAfterRuns]

/-- A run on the store that leaves the disk as it is. -/
structure Idle (run : Environment × AnalyzeRequest) : Prop where
  store : run.2.store = some "s.json"
  same : (runAnalyze readOnly run.1 reportStore run.2).1 = reportStore
  saved : savedBy readOnly run.1 reportStore run.2 = []

theorem idle_unsaved : Idle (environmentOn .willing, { savingTo "s.json" with noSave := true }) := by
  cases hreport : report (environmentOn .willing) reportStore { savingTo "s.json" with noSave := true } with
  | error f => exact ⟨rfl, by simp [runAnalyze, hreport], by simp [savedBy, hreport]⟩
  | ok pair =>
    exact ⟨rfl, by simp [runAnalyze, hreport, filesAfter_readOnly], by simp [savedBy, hreport]⟩

theorem append_reportStore_fixed (rep : Report) :
    Store.append Store.fixedMachine reportStore "s.json" rep =
      (reportStore, some (.write "s.json" .denied)) := rfl

theorem idle_unstored : Idle (environmentOn Store.fixedMachine, savingTo "s.json") := by
  have hmade := report_savingTo Store.fixedMachine 0o600 (Store.storeText reportRecords) "s.json"
  have hfailed := append_reportStore_fixed
    (savedReport Store.fixedMachine 0o600 (Store.storeText reportRecords) "s.json")
  have hrun := runAnalyze_of_append_failed hmade rfl hfailed
  rw [← reportStore] at hmade hrun
  exact ⟨rfl, by rw [hrun], by simp [savedBy, hmade, hrun, exitNotStored, exitSuccess]⟩

theorem idle_idleRuns : ∀ run ∈ idleRuns, Idle run := by
  simp only [idleRuns, List.forall_mem_cons, List.not_mem_nil, false_imp_iff, implies_true,
    and_true]
  exact ⟨⟨rfl, rfl, rfl⟩, idle_unsaved, idle_unstored⟩

/-- Idle runs are a session. -/
theorem session_diskAfterRuns {runs : List (Environment × AnalyzeRequest)}
    (h : ∀ run ∈ runs, Idle run) :
    diskAfterRuns reportStore runs = reportStore ∧
      Session "s.json" reportStore [] (diskAfterRuns reportStore runs) := by
  induction runs using List.reverseRecOn with
  | nil => exact ⟨rfl, .start⟩
  | append_singleton runs run ih =>
    obtain ⟨hruns, hrun⟩ := List.forall_mem_append.mp h
    obtain ⟨hstore, hsame, hsaved⟩ := List.forall_mem_singleton.mp hrun
    obtain ⟨hdisk, hsession⟩ := ih hruns
    rw [hdisk] at hsession
    have hagainst : Against "s.json" readOnly run.1 reportStore run.2 :=
      against_readOnly hstore isDirectory_reportStore
    have hnext := hsession.analyzed readOnly run.1 run.2 hagainst
    rw [hsaved] at hnext
    rw [diskAfterRuns_concat, hdisk]
    exact ⟨hsame, hnext⟩

/-- A report can be appended to the store; there is still no configuration then. -/
theorem append_reportStore (rep : Report) :
    ∃ d', Store.append .willing reportStore "s.json" rep = (d', none) ∧
      ∀ p ∈ usualPaths, d'.isFile p = false := by
  have hdone : (Store.append .willing reportStore "s.json" rep).2 = none := rfl
  exact ⟨_, Prod.ext rfl hdone, forall_usualPaths.mpr ⟨rfl, rfl⟩⟩

/-- A listing without a configuration and without a limit. -/
theorem historyShown_of_reports (env : Environment) {d : Disk} {path : String} {all : List Report}
    (habsent : ∀ p ∈ usualPaths, d.isFile p = false) (h : Store.reports d path = all) :
    HistoryShown env.colour none path all (runHistory env d { store := some path }) := by
  have hconfig : Configured d none {} := .defaults habsent
  have hvalid : Config.Valid {} := ⟨by simp, by simp, by simp⟩
  have hshown := @historyShown_runHistory env d { store := some path } {} path all hconfig hvalid rfl
  exact hshown (by rw [h])

/-- An append that fails makes a directory on the way, and so opens a way to the store. -/
theorem append_reportStore_around (rep : Report) :
    ∃ d', Store.append Store.fixedMachine reportStore "a/../s.json" rep =
        (d', some (.write "a/../s.json" .denied)) ∧
      d'.HoldsText "a/../s.json" (Store.storeText reportRecords) ∧ d'.Readable "a/../s.json" ∧
      ∀ p ∈ usualPaths, d'.isFile p = false := by
  have hfailed : (Store.append Store.fixedMachine reportStore "a/../s.json" rep).2 =
      some (.write "a/../s.json" .denied) := rfl
  have hentry : (Store.append Store.fixedMachine reportStore "a/../s.json" rep).1.entry
      "a/../s.json" = .ok (["w", "s.json"], .file 0o600 (Store.storeText reportRecords).toUTF8) :=
    rfl
  refine ⟨_, Prod.ext rfl hfailed, ⟨_, _, hentry⟩, ?_, forall_usualPaths.mpr ⟨rfl, rfl⟩⟩
  exact (Disk.readable_iff_of_entry hentry).mpr rfl

/-! ### The history after a session -/

/-- What a listing of a store shows after a session of analyses whose linters keep the store and whose
failed runs open no way to another one: if the store can be read then, the reports that were there at
first and then those that have been saved, as many of the last ones as are asked for; and else that
there are none. Assumed is that doubles read back from their texts and that the numbers of the
reports are words. -/
theorem history_shows_saved {path : String} {d₀ d : Disk} {saved : List Report}
    (h : Session path d₀ saved d)
    (hdoubles : ∀ x, .double x ∈ (Json.arr (Store.records d₀ path)).scalars → Json.ReadsBack x)
    (hsaved : ∀ rep ∈ saved, rep.Storable) (env : Environment) (request : HistoryRequest)
    {c : Config} (hconfig : Configured d request.config c) (hvalid : c.Valid)
    (hpath : request.store.getD c.storePathOrDefault = path) :
    (d.Readable path →
      HistoryShown env.colour request.limit path (Store.reports d₀ path ++ saved)
        (runHistory env d request)) ∧
    (¬ d.Readable path →
      HistoryShown env.colour request.limit path [] (runHistory env d request)) := by
  constructor
  · intro hread
    have hrecords := h.records hread (Store.sound_records hdoubles) hsaved
    have hreports : Store.reports d path = Store.reports d₀ path ++ saved.map Report.asStored := by
      rw [Store.reports, hrecords, List.filterMap_append, Store.filterMap_toRecord, Store.reports]
    have hrow (rep : Report) : rep.asStored.historyRow = rep.historyRow := rfl
    refine historyShown_runHistory hconfig hvalid hpath ?_
    simp [hreports, hrow]
  · intro hread
    refine historyShown_runHistory hconfig hvalid hpath ?_
    rw [Store.reports, Store.records_of_not_readable hread]
    rfl

/-- The idle runs, with or without one after them that saves. -/
theorem history_after_idle_runs :
    HistoryShown false (some 5) "s.json" [Store.halfReport]
        (runHistory (environmentOn .willing) (diskAfterRuns reportStore idleRuns)
          { store := some "s.json", limit := some 5 }) ∧
      ∀ rep, report (environmentOn .willing) reportStore (savingTo "s.json") = .ok ({}, rep) →
        rep.Storable →
        HistoryShown false (some 5) "s.json" [Store.halfReport, rep]
          (runHistory (environmentOn .willing)
            (diskAfterRuns reportStore (idleRuns ++ [(environmentOn .willing, savingTo "s.json")]))
            { store := some "s.json", limit := some 5 }) := by
  have hdoubles : ∀ x, .double x ∈ (Json.arr (Store.records reportStore "s.json")).scalars →
      Json.ReadsBack x := by
    rw [records_reportStore.1]
    exact fun x hx => sound_reportRecords.legible _ hx
  have hvalid : Config.Valid {} := ⟨by simp, by simp, by simp⟩
  obtain ⟨hdisk, hidle⟩ := session_diskAfterRuns idle_idleRuns
  rw [hdisk] at hidle ⊢
  constructor
  · have hconfig : Configured reportStore none {} := .defaults (not_isFile_usualPaths _ _)
    have hshown := (history_shows_saved hidle hdoubles (by simp) (environmentOn .willing)
      { store := some "s.json", limit := some 5 } hconfig hvalid rfl).1 readable_reportStore
    rwa [records_reportStore.2] at hshown
  · intro rep hmade hrep
    obtain ⟨d, happend, habsent⟩ := append_reportStore rep
    have hrun := runAnalyze_of_append hmade rfl happend
    have hsaved := savedBy_of_append hmade rfl happend
    have hsession := hidle.analyzed readOnly (environmentOn .willing) (savingTo "s.json")
      (against_readOnly rfl isDirectory_reportStore)
    rw [hsaved, hrun, List.nil_append] at hsession
    have hread : d.Readable "s.json" := by
      rw [← Store.appendEach_singleton happend]
      exact (Store.readable_appendEach_iff mode_reportStore _).mpr rfl
    have hshown := (history_shows_saved hsession hdoubles (by simpa using hrep)
      (environmentOn .willing) { store := some "s.json", limit := some 5 } (.defaults habsent)
      hvalid rfl).1 hread
    rw [diskAfterRuns_concat, hdisk, hrun]
    rwa [records_reportStore.2] at hshown

/-- The listing can differ from what has been saved. A store of mode zero lists nothing, though a
run has saved a report to it; and a run that has failed to save its report to a path through a
directory that was not there has made the directory, so that the store is listed then. -/
theorem history_differs_from_saved :
    (∃ rep,
      savedBy readOnly (environmentOn .willing) (storeAndSource 0 "[0.5]") (savingTo "s.json") =
        [rep] ∧
      ¬ HistoryShown false none "s.json"
        (Store.reports (storeAndSource 0 "[0.5]") "s.json" ++ [rep])
        (runHistory (environmentOn .willing)
          (runAnalyze readOnly (environmentOn .willing) (storeAndSource 0 "[0.5]")
            (savingTo "s.json")).1 { store := some "s.json" })) ∧
    savedBy readOnly (environmentOn Store.fixedMachine) reportStore (savingTo "a/../s.json") = [] ∧
      ¬ HistoryShown false none "a/../s.json" (Store.reports reportStore "a/../s.json")
        (runHistory (environmentOn .willing)
          (runAnalyze readOnly (environmentOn Store.fixedMachine) reportStore
            (savingTo "a/../s.json")).1 { store := some "a/../s.json" }) := by
  constructor
  · have hmade := report_savingTo .willing 0 "[0.5]" "s.json"
    generalize savedReport .willing 0 "[0.5]" "s.json" = rep at hmade
    obtain ⟨d', happend, hsealed, habsent⟩ := append_sealed rep
    generalize storeAndSource 0 "[0.5]" = d at hmade happend ⊢
    have hrun := runAnalyze_of_append hmade rfl happend
    refine ⟨rep, savedBy_of_append hmade rfl happend, fun hshown => ?_⟩
    rw [hrun] at hshown
    have hnone : Store.reports d' "s.json" = [] := by
      rw [Store.reports, Store.records_of_not_readable hsealed]
      rfl
    have hempty := historyShown_of_reports (environmentOn .willing) habsent hnone
    have hlength := hshown.none_iff.mp (hempty.none_iff.mpr rfl)
    simp at hlength
  · have hmade := report_savingTo Store.fixedMachine 0o600 (Store.storeText reportRecords)
      "a/../s.json"
    rw [← reportStore] at hmade
    obtain ⟨d', hfailed, hholds, hread, habsent⟩ := append_reportStore_around
      (savedReport Store.fixedMachine 0o600 (Store.storeText reportRecords) "a/../s.json")
    have hbefore : Store.reports reportStore "a/../s.json" = [] := by
      have hentry : reportStore.entry "a/../s.json" = .error .notFound := rfl
      rw [Store.reports, Store.records_of_readText_error (Disk.readText_of_entry_error hentry)]
      rfl
    generalize reportStore = d at hmade hfailed hbefore ⊢
    have hrun := runAnalyze_of_append_failed hmade rfl hfailed
    refine ⟨by simp [savedBy, hmade, hrun, exitNotStored, exitSuccess], fun hshown => ?_⟩
    rw [hrun, hbefore] at hshown
    have hlisted := historyShown_of_reports (environmentOn .willing) habsent
      (records_of_holdsText hholds hread).2
    have hlength := hlisted.none_iff.mp (hshown.none_iff.mpr rfl)
    simp at hlength

end CommandLine
end SourceAudit
