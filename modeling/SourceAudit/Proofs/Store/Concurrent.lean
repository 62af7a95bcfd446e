import Mathlib.Data.List.Induction
import Mathlib.Data.List.Nodup
import Mathlib.Data.List.Perm.Subperm
import SourceAudit.Proofs.Store.History

/-!
Appends to one store at the same time. Nothing keeps them apart: each has a turn at which it reads
the store and a later one at which it writes what it has read with its record at the end, and others
may have their turns in between. The store always holds what the latest of them wrote, which is the
old records and then those of different appends; the record of an append is lost only to one that
had read before it wrote, and wrote after it (`last_writer_wins`).
-/

namespace SourceAudit.Store

open SourceAudit.Files (Disk)
open SourceAudit.Files.Disk (Grows)

variable {ι : Type}

/-! ### The order of turns -/

/-- A turn of an append. -/
inductive Event (ι : Type) where
  | read (i : ι)
  | commit (i : ι)
  | fail (i : ι)

/-- The append whose commit the event is. -/
def Event.committer? : Event ι → Option ι
  | .commit i => some i
  | .read _ | .fail _ => none

/-- The appends that have committed, in order. -/
def committers (events : List (Event ι)) : List ι := events.filterMap Event.committer?

theorem mem_committers {events : List (Event ι)} {i : ι} :
    i ∈ committers events ↔ .commit i ∈ events := by
  simp only [committers, List.mem_filterMap]
  constructor
  · rintro ⟨e, he, hi⟩
    cases e with
    | commit j =>
      cases hi
      exact he
    | read | fail => cases hi
  · intro h
    exact ⟨_, h, rfl⟩

@[simp] theorem committers_read (events : List (Event ι)) (i : ι) :
    committers (events ++ [.read i]) = committers events := by
  simp [committers, Event.committer?]

@[simp] theorem committers_commit (events : List (Event ι)) (i : ι) :
    committers (events ++ [.commit i]) = committers events ++ [i] := by
  simp [committers, Event.committer?]

@[simp] theorem committers_fail (events : List (Event ι)) (i : ι) :
    committers (events ++ [.fail i]) = committers events := by
  simp [committers, Event.committer?]

/-- The append `k` has read before the commit of `j`. -/
def ReadsBefore (events : List (Event ι)) (k j : ι) : Prop :=
  ∃ before after, events = before ++ .commit j :: after ∧ .read k ∈ before

/-- The append `k` has read before the commit of `j`, and has committed after it. -/
def Spans (events : List (Event ι)) (k j : ι) : Prop :=
  ∃ before after, events = before ++ .commit j :: after ∧ .read k ∈ before ∧ .commit k ∈ after

theorem ReadsBefore.concat {events : List (Event ι)} {k j : ι} (h : ReadsBefore events k j)
    (e : Event ι) : ReadsBefore (events ++ [e]) k j := by
  obtain ⟨before, after, rfl, hread⟩ := h
  exact ⟨before, after ++ [e], by simp, hread⟩

theorem readsBefore_commit {events : List (Event ι)} {k : ι} (h : .read k ∈ events) (j : ι) :
    ReadsBefore (events ++ [.commit j]) k j :=
  ⟨events, [], rfl, h⟩

theorem Spans.concat {events : List (Event ι)} {k j : ι} (h : Spans events k j) (e : Event ι) :
    Spans (events ++ [e]) k j := by
  obtain ⟨before, after, rfl, hread, hcommit⟩ := h
  exact ⟨before, after ++ [e], by simp, hread, by simp [hcommit]⟩

theorem ReadsBefore.spans {events : List (Event ι)} {k j : ι} (h : ReadsBefore events k j) :
    Spans (events ++ [.commit k]) k j := by
  obtain ⟨before, after, rfl, hread⟩ := h
  exact ⟨before, after ++ [.commit k], by simp, hread, by simp⟩

/-! ### The store -/

/-- Directories that are made above the store do not change what it loads. -/
def Settled (d : Disk) (path : String) : Prop :=
  ∀ d', Grows (Files.Path.ancestors (directoryOf path)) d d' → records d' path = records d path

theorem readText_of_grows {paths : List String} {d d' : Disk} (h : Grows paths d d')
    {path : String} {x : Files.Place × Files.Entry} (hx : d.entry path = .ok x) :
    d'.readText path = d.readText path :=
  Disk.readText_congr h.sameUse ((h.entry hx).trans hx.symm)

/-- A store that is there stays what it is. -/
theorem settled_of_entry {d : Disk} {path : String} {x : Files.Place × Files.Entry}
    (hx : d.entry path = .ok x) : Settled d path := by
  intro d' h
  simp only [records, readText_of_grows h hx]

/-- No directory opens a way to another store if the path does not go up again. -/
theorem settled_of_goesDown {d : Disk} {path : String} (hr : d.Rooted)
    (hdown : ['.', '.'] ∉ Files.Path.parts path) : Settled d path := by
  intro d' hgrows
  cases hentry : d.entry path with
  | ok x => exact settled_of_entry hentry d' hgrows
  | error f =>
    rw [records_of_readText_error (Disk.readText_of_entry_error hentry)]
    cases hentry' : d'.entry path with
    | error f' => exact records_of_readText_error (Disk.readText_of_entry_error hentry')
    | ok x =>
      obtain ⟨q, e⟩ := x
      cases e with
      | directory mode =>
        obtain ⟨f', hread⟩ := Disk.readText_of_directory hentry'
        exact records_of_readText_error hread
      | file mode content =>
        -- a file is not new, so the path led to it before
        obtain ⟨hlead, hfile⟩ := Disk.entry_eq_ok.mp hentry'
        have hsame : d'.get? q = d.get? q := by
          rcases hgrows.get? q with hsame | ⟨-, hdir, -⟩
          · exact hsame
          · rw [hfile] at hdir
            cases hdir
        have hold : d.get? q = some (.file mode content) := by rw [← hsame, hfile]
        have hlead' : d.locate path = .ok (.found q) :=
          Disk.locate_of_leads hlead hgrows.sameUse.symm.workingPlace
            fun _ hl => hl.of_rooted hr hgrows.keepsDirectories hdown hsame (by simp [hold])
        rw [Disk.entry_eq_ok.mpr ⟨hlead', hold⟩] at hentry
        cases hentry

/-- The records that are there at first, and then those of appends. -/
def historyOf (appends : ι → Machine × Report) (path : String) (d₀ : Disk) (ids : List ι) :
    List Json :=
  records d₀ path ++ ids.map fun i => (appends i).2.toRecord

theorem historyOf_concat (appends : ι → Machine × Report) (path : String) (d₀ : Disk)
    (ids : List ι) (i : ι) :
    historyOf appends path d₀ (ids ++ [i]) =
      historyOf appends path d₀ ids ++ [(appends i).2.toRecord] := by
  simp [historyOf]

theorem sound_historyOf {appends : ι → Machine × Report} {path : String} {d₀ : Disk}
    (hold : Sound (records d₀ path)) (happends : ∀ i, (appends i).2.Storable) (ids : List ι) :
    Sound (historyOf appends path d₀ ids) := by
  have hids : ∀ r ∈ ids.map fun i => (appends i).2, r.Storable := by
    simp [happends]
  simpa [historyOf, Function.comp_def] using hold.append_map hids

/-! ### Appends that take turns -/

/-- How far an append has come. -/
inductive Phase where
  | waiting
  | holding (snapshot : List Json)
  | committed (snapshot : List Json)
  | failed

/-- The files, and how far each append has come. -/
structure Moment (ι : Type) where
  disk : Disk
  phase : ι → Phase

variable [DecidableEq ι]

/-- The files are `d` now, and the append `i` has come to a phase. -/
def Moment.next (s : Moment ι) (d : Disk) (i : ι) (p : Phase) : Moment ι :=
  ⟨d, fun j => if j = i then p else s.phase j⟩

@[simp] theorem Moment.disk_next (s : Moment ι) (d : Disk) (i : ι) (p : Phase) :
    (s.next d i p).disk = d := rfl

@[simp] theorem Moment.phase_next_self (s : Moment ι) (d : Disk) (i : ι) (p : Phase) :
    (s.next d i p).phase i = p := if_pos rfl

@[simp] theorem Moment.phase_next_of_ne (s : Moment ι) (d : Disk) {i j : ι} (p : Phase)
    (h : j ≠ i) : (s.next d i p).phase j = s.phase j := if_neg h

theorem Moment.committed_next {s : Moment ι} {i k : ι} {snapshot : List Json}
    (h : s.phase k = .committed snapshot) (hi : s.phase i ≠ .committed snapshot) (d : Disk)
    (p : Phase) : (s.next d i p).phase k = .committed snapshot := by
  have hki : k ≠ i := by
    rintro rfl
    exact hi h
  rw [phase_next_of_ne _ _ _ hki, h]

/-- Whoever holds a snapshot has held it before the turn, unless it was taken at the turn. -/
theorem Moment.holding_of_next {s : Moment ι} {i k : ι} {d : Disk} {p : Phase}
    {snapshot : List Json} (h : (s.next d i p).phase k = .holding snapshot)
    (hp : p ≠ .holding snapshot) : s.phase k = .holding snapshot := by
  have hki : k ≠ i := by
    rintro rfl
    rw [phase_next_self] at h
    exact hp h
  rwa [phase_next_of_ne _ _ _ hki] at h

/-- One turn. An append reads the store once; then it writes, and that takes one move or fails. -/
inductive Turn (appends : ι → Machine × Report) (path : String) :
    Moment ι → Event ι → Moment ι → Prop
  | read {s : Moment ι} {i : ι} (hphase : s.phase i = .waiting) :
      Turn appends path s (.read i) (s.next s.disk i (.holding (records s.disk path)))
  | commit {s : Moment ι} {i : ι} {snapshot : List Json} {d : Disk}
      (hphase : s.phase i = .holding snapshot)
      (hsave : save (appends i).1 s.disk path (snapshot ++ [(appends i).2.toRecord]) = (d, none)) :
      Turn appends path s (.commit i) (s.next d i (.committed snapshot))
  | fail {s : Moment ι} {i : ι} {snapshot : List Json} {d : Disk} {e : Fault}
      (hphase : s.phase i = .holding snapshot)
      (hsave : save (appends i).1 s.disk path (snapshot ++ [(appends i).2.toRecord]) =
        (d, some e)) :
      Turn appends path s (.fail i) (s.next d i .failed)

/-- From files where no append has begun, the turns lead to a moment. -/
inductive Run (appends : ι → Machine × Report) (path : String) (d₀ : Disk) :
    List (Event ι) → Moment ι → Prop
  | start : Run appends path d₀ [] ⟨d₀, fun _ => .waiting⟩
  | turn {events : List (Event ι)} {s s' : Moment ι} {e : Event ι}
      (hrun : Run appends path d₀ events s) (hturn : Turn appends path s e s') :
      Run appends path d₀ (events ++ [e]) s'

/-- The appends whose records are in the store and in the snapshots. -/
structure Board (ι : Type) where
  kept : List ι
  held : ι → List ι

def Board.after (b : Board ι) : Event ι → Board ι
  | .read i => { b with held := fun j => if j = i then b.kept else b.held j }
  | .commit i => { b with kept := b.held i ++ [i] }
  | .fail _ => b

def board (events : List (Event ι)) : Board ι := events.foldl Board.after ⟨[], fun _ => []⟩

@[simp] theorem board_read (events : List (Event ι)) (i : ι) :
    board (events ++ [.read i]) =
      ⟨(board events).kept,
        fun j => if j = i then (board events).kept else (board events).held j⟩ := by
  simp [board, Board.after]

@[simp] theorem board_commit (events : List (Event ι)) (i : ι) :
    board (events ++ [.commit i]) = ⟨(board events).held i ++ [i], (board events).held⟩ := by
  simp [board, Board.after]

@[simp] theorem board_fail (events : List (Event ι)) (i : ι) :
    board (events ++ [.fail i]) = board events := by
  simp [board, Board.after]

section

variable {appends : ι → Machine × Report} {path : String} {d₀ : Disk} {events : List (Event ι)}
  {s : Moment ι}

/-- An append is its two turns, with no other turn between them. -/
theorem append_eq_iff_turns {i : ι} (hphase : s.phase i = .waiting) (d : Disk) :
    append (appends i).1 s.disk path (appends i).2 = (d, none) ↔
      ∃ s₁ s₂, Turn appends path s (.read i) s₁ ∧ Turn appends path s₁ (.commit i) s₂ ∧
        s₂.disk = d := by
  constructor
  · intro h
    exact ⟨_, _, .read hphase, .commit (Moment.phase_next_self ..) h, rfl⟩
  · rintro ⟨s₁, s₂, hread, hcommit, rfl⟩
    cases hread
    cases hcommit with
    | commit hholding hsave =>
      rw [Moment.phase_next_self] at hholding
      cases hholding
      exact hsave

/-! ### Phases and turns -/

theorem Run.read_mem (h : Run appends path d₀ events s) {i : ι} (hi : s.phase i ≠ .waiting) :
    .read i ∈ events := by
  induction h with
  | start => exact absurd rfl hi
  | turn hrun hturn ih =>
    cases hturn with
    | @read j hphase =>
      by_cases hij : i = j
      · simp [hij]
      · rw [Moment.phase_next_of_ne _ _ _ hij] at hi
        exact List.mem_append_left _ (ih hi)
    | @commit j _ _ hphase | @fail j _ _ _ hphase =>
      by_cases hij : i = j
      · exact List.mem_append_left _ (ih (by simp [hij, hphase]))
      · rw [Moment.phase_next_of_ne _ _ _ hij] at hi
        exact List.mem_append_left _ (ih hi)

theorem Run.commit_mem (h : Run appends path d₀ events s) {i : ι} :
    .commit i ∈ events ↔ ∃ snapshot, s.phase i = .committed snapshot := by
  induction h with
  | start => simp
  | turn hrun hturn ih =>
    cases hturn with
    | @read j hphase | @fail j _ _ _ hphase =>
      by_cases hij : i = j
      · subst hij
        simp [ih, hphase]
      · simp [ih, hij]
    | @commit j _ _ hphase =>
      by_cases hij : i = j
      · simp [hij]
      · simp [ih, hij]

theorem Run.commit_not_mem (h : Run appends path d₀ events s) {i : ι} {snapshot : List Json}
    (hi : s.phase i = .holding snapshot) : .commit i ∉ events := by
  simp [h.commit_mem, hi]

/-- No append commits twice. -/
theorem Run.nodup_committers (h : Run appends path d₀ events s) : (committers events).Nodup := by
  induction h with
  | start => exact .nil
  | @turn events s s' e hrun hturn ih =>
    cases hturn with
    | read | fail => simpa using ih
    | @commit i _ _ hphase =>
      have hi : i ∉ committers events := fun hi => hrun.commit_not_mem hphase (mem_committers.mp hi)
      simpa using List.Nodup.concat hi ih

/-! ### What the order decides -/

/-- Records come into the store, and into snapshots, in the order of the commits. -/
theorem board_sublist (events : List (Event ι)) :
    (board events).kept.Sublist (committers events) ∧
      ∀ i, ((board events).held i).Sublist (committers events) := by
  induction events using List.reverseRecOn with
  | nil => exact ⟨.refl _, fun _ => .refl _⟩
  | append_singleton events e ih =>
    obtain ⟨hkept, hheld⟩ := ih
    cases e with
    | read i =>
      rw [board_read, committers_read]
      refine ⟨hkept, ?_⟩
      intro j
      dsimp only
      split
      · exact hkept
      · exact hheld j
    | commit i =>
      rw [board_commit, committers_commit]
      refine ⟨(hheld i).append (.refl [i]), ?_⟩
      intro j
      exact (hheld j).trans (List.sublist_append_left _ _)
    | fail i => simpa using ⟨hkept, hheld⟩

/-- The last record in the store is that of the latest commit. -/
theorem getLast?_kept (events : List (Event ι)) :
    (board events).kept.getLast? = (committers events).getLast? := by
  induction events using List.reverseRecOn with
  | nil => rfl
  | append_singleton events e ih =>
    cases e with
    | read i => simpa using ih
    | commit i => simp
    | fail i => simpa using ih

/-- The append is among the given ones, or another one spans its commit. -/
def Accounted (events : List (Event ι)) (j : ι) (ids : List ι) : Prop :=
  j ∈ ids ∨ ∃ k, k ≠ j ∧ Spans events k j

omit [DecidableEq ι] in
theorem Accounted.concat {j : ι} {ids : List ι} (h : Accounted events j ids) (e : Event ι) :
    Accounted (events ++ [e]) j ids := by
  rcases h with hmem | ⟨k, hk, hspans⟩
  · exact .inl hmem
  · exact .inr ⟨k, hk, hspans.concat e⟩

/-- A committed record is in the store, and in each snapshot that was taken since, unless another
append spans its commit. -/
theorem Run.accounted (h : Run appends path d₀ events s) {j : ι} (hj : .commit j ∈ events) :
    Accounted events j (board events).kept ∧
      ∀ i snapshot, s.phase i = .holding snapshot →
        ReadsBefore events i j ∨ Accounted events j ((board events).held i) := by
  induction h with
  | start => cases hj
  | @turn events s s' e hrun hturn ih =>
    cases hturn with
    | @read i hphase =>
      rw [board_read]
      obtain ⟨hkept, hheld⟩ := ih (by simpa using hj)
      refine ⟨hkept.concat _, ?_⟩
      intro k snapshot hk
      by_cases hki : k = i
      · simp only [if_pos hki]
        exact .inr (hkept.concat _)
      · simp only [if_neg hki]
        rw [Moment.phase_next_of_ne _ _ _ hki] at hk
        exact (hheld k snapshot hk).imp (·.concat _) (·.concat _)
    | @fail i _ _ _ hphase =>
      rw [board_fail]
      obtain ⟨hkept, hheld⟩ := ih (by simpa using hj)
      refine ⟨hkept.concat _, ?_⟩
      intro k snapshot hk
      have hk := Moment.holding_of_next hk nofun
      exact (hheld k snapshot hk).imp (·.concat _) (·.concat _)
    | @commit i taken _ hphase =>
      rw [board_commit]
      by_cases hji : j = i
      · subst hji
        refine ⟨.inl (by simp), ?_⟩
        intro k snapshot hk
        -- whoever holds a snapshot at this commit has read before it
        have hk := Moment.holding_of_next hk nofun
        exact .inl (readsBefore_commit (hrun.read_mem (by simp [hk])) j)
      · obtain ⟨-, hheld⟩ := ih (by simpa [hji] using hj)
        constructor
        · rcases hheld i taken hphase with hbefore | hmem | hspanned
          · exact .inr ⟨i, Ne.symm hji, hbefore.spans⟩
          · exact .inl (by simp [hmem])
          · exact Accounted.concat (.inr hspanned) _
        · intro k snapshot hk
          have hk := Moment.holding_of_next hk nofun
          exact (hheld k snapshot hk).imp (·.concat _) (·.concat _)

/-! ### What the store holds -/

/-- The store and the snapshots hold the old records and then those that the order of the turns
decides. -/
structure Tracks (appends : ι → Machine × Report) (path : String) (d₀ : Disk)
    (events : List (Event ι)) (s : Moment ι) : Prop where
  untouched : committers events = [] →
    Grows (Files.Path.ancestors (directoryOf path)) d₀ s.disk ∧
      records s.disk path = records d₀ path ∧ ((∀ i, .fail i ∉ events) → s.disk = d₀)
  written : ∀ i, (committers events).getLast? = some i →
    ∃ snapshot, s.phase i = .committed snapshot ∧
      s.disk.HoldsText path (storeText (snapshot ++ [(appends i).2.toRecord])) ∧
      snapshot ++ [(appends i).2.toRecord] = historyOf appends path d₀ (board events).kept
  snapshots : ∀ i snapshot, s.phase i = .holding snapshot →
    snapshot = historyOf appends path d₀ ((board events).held i)

theorem Tracks.loads (h : Tracks appends path d₀ events s) (hread : s.disk.Readable path)
    (hold : Sound (records d₀ path)) (happends : ∀ i, (appends i).2.Storable) :
    records s.disk path = historyOf appends path d₀ (board events).kept := by
  have hlast := getLast?_kept events
  cases hcommitter : (committers events).getLast? with
  | none =>
    rw [hcommitter, List.getLast?_eq_none_iff] at hlast
    obtain ⟨-, hrecords, -⟩ := h.untouched (List.getLast?_eq_none_iff.mp hcommitter)
    rw [hrecords, hlast, historyOf, List.map_nil, List.append_nil]
  | some i =>
    obtain ⟨snapshot, -, htext, hhistory⟩ := h.written i hcommitter
    rw [hhistory] at htext
    have hspells : Spells s.disk path (historyOf appends path d₀ (board events).kept) :=
      ⟨_, htext, parse?_storeText (sound_historyOf hold happends _)⟩
    exact (hspells.records_eq hread).1

theorem Tracks.read (h : Tracks appends path d₀ events s) {i : ι} (hphase : s.phase i = .waiting)
    (hrecords : records s.disk path = historyOf appends path d₀ (board events).kept) :
    Tracks appends path d₀ (events ++ [.read i])
      (s.next s.disk i (.holding (records s.disk path))) := by
  refine ⟨?_, ?_, ?_⟩
  · intro hnone
    obtain ⟨hgrows, hsame, hdisk⟩ := h.untouched (by simpa using hnone)
    exact ⟨hgrows, hsame, fun hfails => hdisk fun k hk => hfails k (by simp [hk])⟩
  · intro k hk
    obtain ⟨snapshot, hcommitted, hwritten⟩ := h.written k (by simpa using hk)
    refine ⟨snapshot, ?_, by simpa using hwritten⟩
    exact Moment.committed_next hcommitted (by simp [hphase]) _ _
  · intro k snapshot hk
    by_cases hki : k = i
    · subst hki
      rw [Moment.phase_next_self] at hk
      cases hk
      simpa using hrecords
    · rw [Moment.phase_next_of_ne _ _ _ hki] at hk
      simpa [hki] using h.snapshots k snapshot hk

theorem Tracks.commit (h : Tracks appends path d₀ events s) {i : ι} {snapshot : List Json}
    {d : Disk} (hphase : s.phase i = .holding snapshot)
    (hsave : save (appends i).1 s.disk path (snapshot ++ [(appends i).2.toRecord]) = (d, none)) :
    Tracks appends path d₀ (events ++ [.commit i]) (s.next d i (.committed snapshot)) := by
  refine ⟨by simp, ?_, ?_⟩
  · intro k hk
    obtain rfl : i = k := by simpa using hk
    refine ⟨snapshot, Moment.phase_next_self .., holdsText_save hsave, ?_⟩
    rw [board_commit, historyOf_concat, h.snapshots i snapshot hphase]
  · intro k other hk
    simpa using h.snapshots k other (Moment.holding_of_next hk nofun)

theorem Tracks.fail (h : Tracks appends path d₀ events s) {i : ι} {snapshot : List Json} {d : Disk}
    {e : Fault} (hphase : s.phase i = .holding snapshot)
    (hsave : save (appends i).1 s.disk path (snapshot ++ [(appends i).2.toRecord]) = (d, some e))
    (hsettled : Settled d₀ path) :
    Tracks appends path d₀ (events ++ [.fail i]) (s.next d i .failed) := by
  have hgrows := (save_failed hsave).grows
  refine ⟨?_, ?_, ?_⟩
  · intro hnone
    obtain ⟨hbefore, -, -⟩ := h.untouched (by simpa using hnone)
    have hall := hbefore.trans hgrows
    exact ⟨hall, hsettled d hall, fun hfails => absurd (by simp) (hfails i)⟩
  · intro k hk
    obtain ⟨old, hcommitted, htext, hhistory⟩ := h.written k (by simpa using hk)
    obtain ⟨p, mode, hentry⟩ := htext
    refine ⟨old, ?_, ⟨p, mode, hgrows.entry hentry⟩, by simpa using hhistory⟩
    exact Moment.committed_next hcommitted (by simp [hphase]) _ _
  · intro k other hk
    simpa using h.snapshots k other (Moment.holding_of_next hk nofun)

/-- A store that can be read after a turn could be read before it, or was not there. -/
theorem Turn.readable {s' : Moment ι} {e : Event ι} (h : Turn appends path s e s')
    (hread : s'.disk.Readable path) : s.disk.Readable path := by
  cases h with
  | read => exact hread
  | commit hphase hsave | fail hphase hsave =>
    rw [Moment.disk_next] at hread
    exact readable_of_save hsave hread

theorem Run.tracks (h : Run appends path d₀ events s) (hread : s.disk.Readable path)
    (hold : Sound (records d₀ path)) (happends : ∀ i, (appends i).2.Storable)
    (hfail : ∀ i, .fail i ∈ events → Settled d₀ path) : Tracks appends path d₀ events s := by
  induction h with
  | start => exact ⟨fun _ => ⟨.refl _ _, rfl, fun _ => rfl⟩, nofun, nofun⟩
  | @turn events s s' e hrun hturn ih =>
    have hbefore := hturn.readable hread
    have htracks := ih hbefore (fun i hi => hfail i (List.mem_append_left _ hi))
    cases hturn with
    | read hphase => exact htracks.read hphase (htracks.loads hbefore hold happends)
    | commit hphase hsave => exact htracks.commit hphase hsave
    | @fail i _ _ _ hphase hsave => exact htracks.fail hphase hsave (hfail i (by simp))

/-- Concurrent appends are last-writer-wins and nothing worse: what a store holds after turns of
appends, of which `kept` are those whose records are in it. -/
structure LastWriterWins (appends : ι → Machine × Report) (path : String) (d₀ : Disk)
    (events : List (Event ι)) (s : Moment ι) (kept : List ι) : Prop where
  /-- Before the first commit there are at most new directories, left by appends that failed. -/
  untouched : committers events = [] →
    Grows (Files.Path.ancestors (directoryOf path)) d₀ s.disk ∧
      ((∀ i, .fail i ∉ events) → s.disk = d₀)
  /-- Then the store is what the latest commit wrote, whole. -/
  written : ∀ i, (committers events).getLast? = some i →
    ∃ snapshot, s.phase i = .committed snapshot ∧
      s.disk.readText path = .ok (storeText (snapshot ++ [(appends i).2.toRecord]))
  /-- It loads as the old records and then those of the appends that are kept. -/
  records_eq : records s.disk path =
    records d₀ path ++ kept.map fun i => (appends i).2.toRecord
  nodup : kept.Nodup
  inOrder : kept.Sublist (committers events)
  latest : kept.getLast? = (committers events).getLast?
  /-- An append that has committed is lost only to one that spans its commit. -/
  lost : ∀ j ∈ committers events, j ∉ kept → ∃ k, k ≠ j ∧ Spans events k j
  /-- If no append spans the commit of another, nothing is lost. -/
  nothingLost : (∀ j k, k ≠ j → ¬ Spans events k j) → kept = committers events

/-- Any number of appends to one store, with their turns in any order; one that fails may also have
no second turn. Assumed is that what is written can be read: the mode of the store lets its owner
read it, doubles in the old records read back from their texts, and the numbers of the reports are
words; and, if an append fails at its second turn, that the directories it may have made do not
change what the path loads. -/
theorem last_writer_wins (h : Run appends path d₀ events s) (hread : s.disk.Readable path)
    (hdoubles : ∀ x, .double x ∈ (Json.arr (records d₀ path)).scalars → Json.ReadsBack x)
    (happends : ∀ i, (appends i).2.Storable)
    (hfail : ∀ i, .fail i ∈ events → Settled d₀ path) :
    LastWriterWins appends path d₀ events s (board events).kept := by
  have hold := sound_records hdoubles
  have htracks := h.tracks hread hold happends hfail
  obtain ⟨hsublist, -⟩ := board_sublist events
  have hnodup := h.nodup_committers
  have hlost (j : ι) (hj : j ∈ committers events) (hmissing : j ∉ (board events).kept) :
      ∃ k, k ≠ j ∧ Spans events k j :=
    (h.accounted (mem_committers.mp hj)).1.resolve_left hmissing
  refine ⟨?_, ?_, htracks.loads hread hold happends, hnodup.sublist hsublist, hsublist,
    getLast?_kept events, hlost, ?_⟩
  · intro hnone
    obtain ⟨hgrows, -, hsame⟩ := htracks.untouched hnone
    exact ⟨hgrows, hsame⟩
  · intro i hi
    obtain ⟨snapshot, hcommitted, htext, -⟩ := htracks.written i hi
    exact ⟨snapshot, hcommitted, Disk.readText_eq_ok.mpr ⟨htext, hread⟩⟩
  · intro hnone
    have hsubset : committers events ⊆ (board events).kept := by
      intro j hj
      by_contra hmissing
      obtain ⟨k, hk, hspans⟩ := hlost j hj hmissing
      exact hnone j k hk hspans
    exact hsublist.eq_of_length_le (hnodup.subperm hsubset).length_le

end

/-- A machine on which no file can be moved. -/
def fixedMachine : Machine :=
  { Machine.willing with refuse := fun step => if step = .replace then some .denied else none }

/-- Three appends, of which the last one cannot write. -/
def rivalAppends : Fin 3 → Machine × Report
  | 0 => (.willing, halfReport)
  | 1 => (.willing, { halfReport with file := "b.py" })
  | 2 => (fixedMachine, { halfReport with file := "c.py" })

/-- The disk after the save of an append that has read the store of one half. -/
def diskLeftBy (i : Fin 3) (d : Disk) : Disk :=
  (save (rivalAppends i).1 d "s.json" [.double half, (rivalAppends i).2.toRecord]).1

/-- It can be read as it could be before. -/
theorem readable_diskLeftBy (i : Fin 3) {d : Disk} (hmode : d.mode "s.json" = .ok 0o600)
    (hread : d.Readable "s.json") :
    (diskLeftBy i d).mode "s.json" = .ok 0o600 ∧ (diskLeftBy i d).Readable "s.json" := by
  have hmode' : (diskLeftBy i d).mode "s.json" = .ok 0o600 := mode_save hmode
  refine ⟨hmode', (Disk.readable_iff hmode').mpr ?_⟩
  rw [diskLeftBy, (sameUse_save ..).grants]
  exact (Disk.readable_iff hmode).mp hread

/-- All read, then one fails and the others write: the first of them is lost. -/
theorem rivalAppends_lose_one :
    ∃ s, Run rivalAppends "s.json" halfStore
        [.read 0, .read 1, .read 2, .fail 2, .commit 0, .commit 1] s ∧
      records s.disk "s.json" = [.double half, (rivalAppends 1).2.toRecord] := by
  have hrecords : records halfStore "s.json" = [.double half] := rfl
  have hhalf : Json.ReadsBack half := rfl
  have hread : Run rivalAppends "s.json" halfStore [.read 0, .read 1, .read 2] _ :=
    .turn (.turn (.turn .start (.read rfl)) (.read rfl)) (.read rfl)
  have hfail : Run rivalAppends "s.json" halfStore [.read 0, .read 1, .read 2, .fail 2] _ :=
    hread.turn (.fail (d := diskLeftBy 2 halfStore) (e := .write "s.json" .denied) rfl
      (Prod.ext rfl (by decide +kernel)))
  have hfirst : Run rivalAppends "s.json" halfStore
      [.read 0, .read 1, .read 2, .fail 2, .commit 0] _ :=
    hfail.turn (.commit (d := diskLeftBy 0 (diskLeftBy 2 halfStore)) rfl
      (Prod.ext rfl (by decide +kernel)))
  have hsecond : Run rivalAppends "s.json" halfStore
      [.read 0, .read 1, .read 2, .fail 2, .commit 0, .commit 1] _ :=
    hfirst.turn (.commit (d := diskLeftBy 1 (diskLeftBy 0 (diskLeftBy 2 halfStore))) rfl
      (Prod.ext rfl (by decide +kernel)))
  have hdoubles : ∀ x, .double x ∈ (Json.arr (records halfStore "s.json")).scalars →
      Json.ReadsBack x := by
    simp [hrecords, Json.scalars, Json.scalarsList, hhalf]
  have hsame : ∀ i, (rivalAppends i).2.numbers = halfReport.numbers ∧
      (rivalAppends i).2.metrics = halfReport.metrics := by decide
  have hstorable : ∀ i, (rivalAppends i).2.Storable := by
    intro i
    obtain ⟨hnumbers, hmetrics⟩ := hsame i
    refine ⟨?_, ?_⟩
    · rw [hnumbers]
      decide
    · rw [hmetrics]
      simp [halfReport, hhalf]
  have hentry : halfStore.entry "s.json" = .ok (["w", "s.json"], .file 0o600 "[0.5]".toUTF8) := rfl
  have hmode : halfStore.mode "s.json" = .ok 0o600 := mode_storeDisk 0o600 _
  obtain ⟨hmode₂, hread₂⟩ := readable_diskLeftBy 2 hmode ((Disk.readable_iff hmode).mpr rfl)
  obtain ⟨hmode₀, hread₀⟩ := readable_diskLeftBy 0 hmode₂ hread₂
  have hread₁ := (readable_diskLeftBy 1 hmode₀ hread₀).2
  have hwins := last_writer_wins hsecond hread₁ hdoubles hstorable fun _ _ => settled_of_entry hentry
  exact ⟨_, hsecond, by simpa [hrecords, board, Board.after] using hwins.records_eq⟩

end SourceAudit.Store
