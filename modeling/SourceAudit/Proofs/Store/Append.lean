import SourceAudit.Proofs.Files.Read
import SourceAudit.Store.Append

/-!
What an append does to the files. One that fails leaves every entry as it was, new directories above
the store apart; one that does not fail changes the store only, which keeps its mode. The two are
told apart by the steps that the machine refuses.
-/

namespace SourceAudit.Store

open SourceAudit.Files (Disk Entry Place)
open SourceAudit.Files.Disk (Grows IsNewDirectory KeepsDirectories Readable SameBut SameUse)

/-! ### Through the temporary file -/

/-- The steps after the directories have been made. -/
def laterSteps : List Step := [.createTemporary, .writeRecords, .writeLineEnd, .setMode, .replace]

theorem step_replaceActions (written : Nat) (path : String) (temp : Place) (text : String) :
    (replaceActions written path temp text).map Action.step = laterSteps := rfl

/-- The action touches one place at most. -/
structure StaysAt (temp : Place) (a : Action) : Prop where
  change : ∀ d, ∃ e, a.change d = .ok (d.put temp e)
  refused : ∀ d, a.refused d = d ∨ ∃ e, a.refused d = d.put temp e

/-- A run that ends at a refused step has touched the one place only. -/
theorem runActions_refused {refuse : Step → Option Files.Fault} {temp : Place} (htemp : temp ≠ [])
    {acts : List Action} {last : Action} (hacts : ∀ a ∈ acts, StaysAt temp a)
    (hlast : last.refused = id) {d d' : Disk} (h : SameBut temp d d') {f : Files.Fault}
    (hf : ((acts ++ [last]).map Action.step).findSome? refuse = some f) :
    ∃ d'', runActions refuse d' (acts ++ [last]) = (d'', some f) ∧ SameBut temp d d'' := by
  induction acts generalizing d' with
  | nil =>
    have hrefuse : refuse last.step = some f := by
      simpa [List.findSome?] using hf
    refine ⟨d', ?_, h⟩
    simp [runActions, hrefuse, hlast]
  | cons a acts ih =>
    have ha : StaysAt temp a := hacts a (by simp)
    rw [List.cons_append, runActions]
    cases hrefuse : refuse a.step with
    | some g =>
      have hfg : g = f := by simpa [hrefuse] using hf
      subst hfg
      refine ⟨a.refused d', rfl, ?_⟩
      rcases ha.refused d' with heq | ⟨e, heq⟩
      · rwa [heq]
      · rw [heq]
        exact h.put htemp e
    | none =>
      obtain ⟨e, heq⟩ := ha.change d'
      have hrest : ((acts ++ [last]).map Action.step).findSome? refuse = some f := by
        simpa [hrefuse] using hf
      simp only [heq]
      exact ih (fun b hb => hacts b (by simp [hb])) (h.put htemp e) hrest

theorem staysAt_replaceActions (written : Nat) (path : String) (temp : Place) (text : String) :
    ∀ a ∈ (replaceActions written path temp text).dropLast, StaysAt temp a := by
  simp only [replaceActions, List.dropLast, List.forall_mem_cons]
  exact ⟨⟨fun _ => ⟨_, rfl⟩, fun _ => .inl rfl⟩, ⟨fun _ => ⟨_, rfl⟩, fun _ => .inr ⟨_, rfl⟩⟩,
    ⟨fun _ => ⟨_, rfl⟩, fun _ => .inl rfl⟩, ⟨fun _ => ⟨_, rfl⟩, fun _ => .inl rfl⟩, by simp⟩

theorem replaceActions_refused {m : Machine} {temp : Place} (htemp : temp ≠ []) {f : Files.Fault}
    (h : laterSteps.findSome? m.refuse = some f) (d : Disk) (path text : String) :
    ∃ d', runActions m.refuse d (replaceActions m.written path temp text) = (d', some f) ∧
      SameBut temp d d' := by
  have hsplit : replaceActions m.written path temp text =
      (replaceActions m.written path temp text).dropLast ++
        [{ step := .replace, change := fun d => d.move temp path }] := rfl
  rw [hsplit]
  refine runActions_refused htemp (staysAt_replaceActions m.written path temp text) rfl
    (.refl temp d) ?_
  rw [← hsplit, step_replaceActions, h]

/-- A run of which no step is refused comes to the move, with the whole text in the temporary
file. -/
theorem replaceActions_allowed {m : Machine} {temp : Place} (htemp : temp ≠ [])
    (h : laterSteps.findSome? m.refuse = none) (d : Disk) (path text : String) :
    ∃ d₁ d₂, SameBut temp d d₁ ∧
      d₁.get? temp = some (.file privateMode (text ++ "\n").toUTF8) ∧
      d₂ = d₁.put temp (.file (modeFor d₁ path) (text ++ "\n").toUTF8) ∧
      (∀ f, d₂.move temp path = .error f →
        runActions m.refuse d (replaceActions m.written path temp text) = (d₂, some f)) ∧
      ∀ d₃, d₂.move temp path = .ok d₃ →
        runActions m.refuse d (replaceActions m.written path temp text) = (d₃, none) := by
  simp only [laterSteps, List.findSome?_eq_none_iff, List.forall_mem_cons] at h
  obtain ⟨hcreate, hrecords, hend, hmode, hreplace, -⟩ := h
  refine ⟨((d.put temp (.file privateMode ByteArray.empty)).put temp
    (.file privateMode text.toUTF8)).put temp (.file privateMode (text ++ "\n").toUTF8), _,
    (((SameBut.refl temp d).put htemp _).put htemp _).put htemp _, ?_, rfl, ?_, ?_⟩
  · rw [Disk.get?_put htemp, if_pos rfl]
  · intro f hmove
    simp only [replaceActions, runActions, hcreate, hrecords, hend, hmode, hreplace, hmove]
  · intro d₃ hmove
    simp only [replaceActions, runActions, hcreate, hrecords, hend, hmode, hreplace, hmove]

/-- The file at the end of the path has been replaced: it holds the text, with the mode of the file
that stood there before, and nothing else has changed. -/
structure Replaced (path text : String) (d d' : Disk) (p : Place) : Prop where
  leads : d'.locate path = .ok (.found p)
  file : d'.get? p = some (.file (((d.get? p).map Entry.mode).getD Files.fileMode) text.toUTF8)
  wasFile : d.holdsDirectory p = false
  sameBut : SameBut p d d'

theorem Replaced.keepsDirectories {path text : String} {d d' : Disk} {p : Place}
    (h : Replaced path text d d' p) : KeepsDirectories d d' := by
  refine ⟨h.sameBut.sameUse, ?_⟩
  intro q mode hq
  have hwas := h.wasFile
  have hqp : q ≠ p := by
    rintro rfl
    simp [Disk.holdsDirectory_iff.mpr ⟨mode, hq⟩] at hwas
  rwa [h.sameBut.get? q hqp]

theorem modeFor_of_entry {d : Disk} {path : String} {p : Place} {e : Entry}
    (h : d.entry path = .ok (p, e)) : modeFor d path = e.mode := by
  simp [modeFor, Disk.mode, h]

theorem modeFor_of_vacant {d : Disk} {path : String} {p : Place} {slash : Bool}
    (h : d.locate path = .ok (.vacant p slash)) : modeFor d path = Files.fileMode := by
  simp [modeFor, Disk.mode, Disk.entry, h]

/-- Moving the temporary file to the end of the path replaces what stood there. -/
theorem replaced_of_move {d d₁ d' : Disk} {temp : Place} {path text : String} {old : ByteArray}
    (htemp : temp ≠ []) (hname : temp.getLast? ≠ some (String.ofList (Files.Path.lastPart path)))
    (hfree : d.get? temp = none) (hsame : SameBut temp d d₁)
    (hprivate : d₁.get? temp = some (.file privateMode old))
    (h : (d₁.put temp (.file (modeFor d₁ path) text.toUTF8)).move temp path = .ok d') :
    ∃ p, Replaced path text d d' p := by
  generalize hd₂ : d₁.put temp (.file (modeFor d₁ path) text.toUTF8) = d₂ at h
  have hget (q : Place) : d₂.get? q =
      if q = temp then some (.file (modeFor d₁ path) text.toUTF8) else d₁.get? q := by
    rw [← hd₂, Disk.get?_put htemp]
  have huse : SameUse d₁ d₂ := by
    rw [← hd₂]
    exact ⟨rfl, rfl⟩
  -- both disks have a file at the temporary place, so the path leads to the same spot on them
  have hlocate : d₂.locate path = d₁.locate path := by
    refine Disk.locate_congr huse ?_ path
    intro q
    rw [hget]
    split
    · rename_i hq
      rw [hq, hprivate]
      rfl
    · rfl
  have hfile : d₂.holdsDirectory temp = false := by
    simp [Disk.holdsDirectory, hget, Entry.isDirectory]
  obtain ⟨p, hmoved⟩ := Disk.moved_of_move htemp hname hfile h
  have hp₁ : d₂.get? p = d₁.get? p := by rw [hget, if_neg hmoved.other]
  have hpd : d₁.get? p = d.get? p := hsame.get? p hmoved.other
  have hmode : modeFor d₁ path = ((d.get? p).map Entry.mode).getD Files.fileMode := by
    rcases hmoved.before with ⟨e, hentry⟩ | ⟨hvacant, hnone⟩
    · obtain ⟨hlead, hp⟩ := Disk.entry_eq_ok.mp hentry
      rw [hlocate] at hlead
      rw [hp₁] at hp
      rw [modeFor_of_entry (Disk.entry_eq_ok.mpr ⟨hlead, hp⟩), ← hpd, hp]
      rfl
    · rw [hlocate] at hvacant
      rw [modeFor_of_vacant hvacant, ← hpd, ← hp₁, hnone]
      rfl
  refine ⟨p, hmoved.leads, ?_, ?_, (hsame.sameUse.trans huse).trans hmoved.sameUse, ?_⟩
  · rw [hmoved.get?_self, hget, if_pos rfl, hmode]
  · rw [Disk.holdsDirectory, ← hpd, ← hp₁]
    exact hmoved.wasFile
  · intro q hq
    rw [hmoved.get?_other q hq]
    split
    · rename_i hqt
      rw [hqt, hfree]
    · rename_i hqt
      rw [hget, if_neg hqt, hsame.get? q hqt]

theorem temporaryName_ne (m : Machine) (d : Disk) (dir : Place) (path : String) :
    (dir ++ [m.temporaryName d dir path]).getLast? ≠
      some (String.ofList (Files.Path.lastPart path)) := by
  intro hlast
  have hname : m.temporaryName d dir path = String.ofList (Files.Path.lastPart path) := by
    simpa using hlast
  exact m.isNotStore d dir path (by rw [hname, String.toList_ofList])

/-- What comes of the steps after the directories: all entries as they were, with the fault of the
first refused step, or a replaced store. -/
theorem replace_spec (m : Machine) (d : Disk) (path : String) (dir : Place) (text : String) :
    match replace m d path dir text with
    | (d', some f) => SameUse d d' ∧ (∀ p, d'.get? p = d.get? p) ∧
        ∀ g, laterSteps.findSome? m.refuse = some g → f = g
    | (d', none) => laterSteps.findSome? m.refuse = none ∧
        ∃ p, Replaced path (text ++ "\n") d d' p := by
  have htemp : dir ++ [m.temporaryName d dir path] ≠ [] := by simp
  have hfree := m.isNew d dir path
  unfold replace
  cases hrefuse : laterSteps.findSome? m.refuse with
  | some g =>
    obtain ⟨d₁, hrun, hsame⟩ := replaceActions_refused htemp hrefuse d path text
    simp only [hrun]
    exact ⟨hsame.sameUse.trans ⟨rfl, rfl⟩, hsame.erase htemp hfree, fun _ h => Option.some.inj h⟩
  | none =>
    obtain ⟨d₁, d₂, hsame, hprivate, hd₂, herror, hok⟩ :=
      replaceActions_allowed htemp hrefuse d path text
    cases hmove : d₂.move (dir ++ [m.temporaryName d dir path]) path with
    | error g =>
      simp only [herror g hmove]
      have hsame₂ := hsame.put htemp (.file (modeFor d₁ path) (text ++ "\n").toUTF8)
      rw [← hd₂] at hsame₂
      exact ⟨hsame₂.sameUse.trans ⟨rfl, rfl⟩, hsame₂.erase htemp hfree, nofun⟩
    | ok d₃ =>
      simp only [hok d₃ hmove]
      rw [hd₂] at hmove
      exact ⟨trivial, replaced_of_move htemp (temporaryName_ne m d dir path) hfree hsame hprivate
        hmove⟩

/-! ### Appending -/

theorem makeParents_grows (m : Machine) (d : Disk) (path : String) :
    Grows (Files.Path.ancestors (directoryOf path)) d (makeParents m d path).1 :=
  Disk.makeDirectories_grows _ d _

theorem directoryOf_cases (path : String) :
    directoryOf path = "/" ∨
      ∃ above, Files.Path.ancestors (directoryOf path) = directoryOf path :: above := by
  have hdot : ∃ above, Files.Path.ancestors "." = "." :: above := ⟨[], by decide⟩
  unfold directoryOf
  cases hparent : Files.Path.parent? path with
  | none => exact .inr hdot
  | some dir =>
    dsimp only
    split
    · exact .inr hdot
    rename_i hdir
    unfold Files.Path.parent? at hparent
    split at hparent
    · cases hparent
    · split at hparent
      · exact .inl (Option.some.inj hparent).symm
      · cases hparent
        exact absurd rfl hdir
    · rename_i first above rest hancestors
      cases hparent
      exact .inr (Files.Path.ancestors_of_mem (by rw [hancestors]; simp))

/-- If the directories could be made, the directory of the store is there. -/
theorem makeParents_has {m : Machine} {d d' : Disk} {path : String}
    (h : makeParents m d path = (d', none)) : d'.has (directoryOf path) = true := by
  rcases directoryOf_cases path with hroot | ⟨above, habove⟩
  · rw [hroot]
    exact Disk.has_root d'
  · unfold makeParents Disk.makePathUnless at h
    rw [habove] at h
    exact Disk.makeDirectories_has h

/-- No directory is made if that of the store is there. -/
theorem makeParents_of_isDirectory (m : Machine) {d : Disk} {path : String}
    (h : d.isDirectory (directoryOf path) = true) : makeParents m d path = (d, none) := by
  unfold makeParents Disk.makePathUnless
  rcases directoryOf_cases path with hroot | ⟨above, habove⟩
  · have hnone : Files.Path.ancestors "/" = [] := by decide
    rw [hroot, hnone, Disk.makeDirectories]
  · have hthere : d.tryDirectory (fun above => m.refuse (.makeDirectory above)) (directoryOf path) =
        .error .alreadyThere := by
      obtain ⟨⟨p, e⟩, hentry⟩ := Disk.entry_of_isDirectory h
      rw [Disk.tryDirectory, Disk.makeDirectory, (Disk.entry_eq_ok.mp hentry).1]
    rw [habove, Disk.makeDirectories, hthere]
    exact if_pos h

/-- What a failed append leaves: all entries, at the ends of the same paths, and new directories
above the store. The error tells whether the directories could be made; if so, it has the fault of
the first refused step. -/
structure Failed (m : Machine) (d d' : Disk) (path : String) (e : Fault) : Prop where
  grows : Grows (Files.Path.ancestors (directoryOf path)) d d'
  entries : ∀ other x, d.entry other = .ok x → d'.entry other = .ok x
  directories : ∀ f, (makeParents m d path).2 = some f → e = .makeDirectory (directoryOf path) f
  later : (makeParents m d path).2 = none →
    ∃ f, e = .write path f ∧ ∀ g, laterSteps.findSome? m.refuse = some g → f = g

/-- What an append leaves that does not fail: at the end of the path a file with the text, which has
the mode of the store before, or the usual one if there was none; all other entries; and new
directories above the store. -/
structure Done (m : Machine) (d d' : Disk) (path text : String) (p : Place) : Prop where
  allowed : (makeParents m d path).2 = none ∧ laterSteps.findSome? m.refuse = none
  leads : d'.locate path = .ok (.found p)
  file : d'.get? p = some (.file (((d.get? p).map Entry.mode).getD Files.fileMode) text.toUTF8)
  others : ∀ q, q ≠ p →
    d'.get? q = d.get? q ∨ IsNewDirectory (Files.Path.ancestors (directoryOf path)) d d' q
  keepsDirectories : KeepsDirectories d d'

/-- The text of a store with a history. -/
def storeText (history : List Json) : String := (Json.arr history).pretty ++ "\n"

section

variable {m : Machine} {d d' : Disk} {path : String} {history : List Json}

/-- Replacing the store after directories have been made changes no more than that. -/
theorem Replaced.after_grows {d₁ : Disk} {paths : List String} {text : String} {p : Place}
    (h : Replaced path text d₁ d' p) (hgrows : Grows paths d d₁) :
    d₁.get? p = d.get? p ∧
      ∀ q, q ≠ p → d'.get? q = d.get? q ∨ IsNewDirectory paths d d' q := by
  constructor
  · rcases hgrows.get? p with hsame | ⟨-, hdir, -⟩
    · exact hsame
    · have hfile := h.wasFile
      simp [Disk.holdsDirectory, hdir, Entry.isDirectory] at hfile
  · intro q hq
    rw [h.sameBut.get? q hq]
    rcases hgrows.get? q with hsame | ⟨hnone, hdir, other, hother, hlead⟩
    · exact .inl hsame
    · have hq' : d'.get? q = some (.directory Files.directoryMode) := by
        rw [h.sameBut.get? q hq, hdir]
      exact .inr ⟨hnone, hq', other, hother,
        Disk.locate_found h.keepsDirectories hlead (by simp [hq'])⟩

theorem save_failed {e : Fault} (h : save m d path history = (d', some e)) :
    Failed m d d' path e := by
  have hparents := makeParents_grows m d path
  unfold save at h
  split at h
  · rename_i d₁ f hmake
    cases h
    rw [hmake] at hparents
    exact ⟨hparents, fun _ _ hx => hparents.entry hx, by simp [hmake], by simp [hmake]⟩
  · rename_i d₁ hmake
    rw [hmake] at hparents
    split at h
    · rename_i f hdir
      have hhas := makeParents_has hmake
      simp [Disk.has, hdir, Except.isOk, Except.toBool] at hhas
    · split at h
      · rename_i place _ hdir _ d₂ f hreplace
        cases h
        have hspec := replace_spec m d₁ path place (Json.arr history).pretty
        rw [hreplace] at hspec
        obtain ⟨huse, hsame, hfirst⟩ := hspec
        have hgrows := hparents.trans (Grows.of_same huse hsame)
        exact ⟨hgrows, fun _ _ hx => hgrows.entry hx, by simp [hmake],
          fun _ => ⟨f, rfl, hfirst⟩⟩
      · cases h

theorem save_done (h : save m d path history = (d', none)) :
    ∃ p, Done m d d' path (storeText history) p := by
  have hparents := makeParents_grows m d path
  unfold save at h
  split at h
  · cases h
  · rename_i d₁ hmake
    rw [hmake] at hparents
    split at h
    · cases h
    · split at h
      · cases h
      · rename_i place _ hdir _ d₂ hreplace
        cases h
        have hspec := replace_spec m d₁ path place (Json.arr history).pretty
        rw [hreplace] at hspec
        obtain ⟨hallowed, p, hp⟩ := hspec
        obtain ⟨hsame, hothers⟩ := hp.after_grows hparents
        refine ⟨p, ⟨by simp [hmake], hallowed⟩, hp.leads, ?_, hothers,
          hparents.keepsDirectories.trans hp.keepsDirectories⟩
        rw [← hsame]
        exact hp.file

/-- If something stood at the end of the path, the new file stands in its place. -/
theorem Done.place_eq {text : String} {p q : Place} {e : Entry} (h : Done m d d' path text q)
    (hentry : d.entry path = .ok (p, e)) : p = q := by
  obtain ⟨hlead, hp⟩ := Disk.entry_eq_ok.mp hentry
  have hsome : (d'.get? p).isSome := by
    by_cases hpq : p = q
    · simp [hpq, h.file]
    · rcases h.others p hpq with hsame | ⟨hnone, -, -⟩
      · simp [hsame, hp]
      · simp [hp] at hnone
  have hlead' := Disk.locate_found h.keepsDirectories hlead hsome
  rw [h.leads] at hlead'
  cases hlead'
  rfl

/-- A store that is there keeps its mode. -/
theorem mode_save {k : Nat} (h : d.mode path = .ok k) :
    (save m d path history).1.mode path = .ok k := by
  obtain ⟨p, e, hentry, rfl⟩ := Disk.mode_eq_ok.mp h
  cases hsave : save m d path history with
  | mk d' o =>
    cases o with
    | some f => exact Disk.mode_eq_ok.mpr ⟨p, e, (save_failed hsave).entries path _ hentry, rfl⟩
    | none =>
      obtain ⟨q, hdone⟩ := save_done hsave
      have hpq := hdone.place_eq hentry
      subst hpq
      have hentry' := Disk.entry_eq_ok.mpr ⟨hdone.leads, hdone.file⟩
      exact Disk.mode_eq_ok.mpr ⟨p, _, hentry', by
        rw [(Disk.entry_eq_ok.mp hentry).2, Option.map_some, Option.getD_some, Entry.mode]⟩

theorem sameUse_save (m : Machine) (d : Disk) (path : String) (history : List Json) :
    SameUse d (save m d path history).1 := by
  cases hsave : save m d path history with
  | mk d' o =>
    cases o with
    | some f => exact (save_failed hsave).grows.sameUse
    | none =>
      obtain ⟨q, hdone⟩ := save_done hsave
      exact hdone.keepsDirectories.sameUse

/-- A store that can be read after an append could be read before, or was not there. -/
theorem readable_of_save {o : Option Fault} (h : save m d path history = (d', o))
    (hread : d'.Readable path) : d.Readable path := by
  intro k hk
  have huse := sameUse_save m d path history
  have hmode : (save m d path history).1.mode path = .ok k := mode_save hk
  rw [h] at huse hmode
  rw [← huse.grants]
  exact hread k hmode

/-- The files after reports have been appended, each on its own machine; any of them may fail. -/
def appendEach (path : String) (d : Disk) (run : List (Machine × Report)) : Disk :=
  run.foldl (fun d step => (append step.1 d path step.2).1) d

theorem appendEach_singleton {r : Report} {o : Option Fault} (h : append m d path r = (d', o)) :
    appendEach path d [(m, r)] = d' := by
  rw [appendEach, List.foldl_cons, h, List.foldl_nil]

theorem mode_appendEach {k : Nat} (h : d.mode path = .ok k) (run : List (Machine × Report)) :
    (appendEach path d run).mode path = .ok k := by
  induction run generalizing d with
  | nil => exact h
  | cons step rest ih =>
    rw [appendEach, List.foldl_cons]
    exact ih (mode_save h)

theorem sameUse_appendEach (path : String) (d : Disk) (run : List (Machine × Report)) :
    SameUse d (appendEach path d run) := by
  induction run generalizing d with
  | nil => exact .refl d
  | cons step rest ih =>
    rw [appendEach, List.foldl_cons]
    exact (sameUse_save ..).trans (ih _)

/-- No appends change whether a store that is there can be read. -/
theorem readable_appendEach_iff {k : Nat} (h : d.mode path = .ok k)
    (run : List (Machine × Report)) :
    (appendEach path d run).Readable path ↔ d.grants Files.readBit k = true := by
  rw [Disk.readable_iff (mode_appendEach h run), (sameUse_appendEach path d run).grants]

theorem readable_of_appendEach {run : List (Machine × Report)}
    (h : (appendEach path d run).Readable path) : d.Readable path :=
  fun _ hk => (readable_appendEach_iff hk run).mp h

end

/-- An append does all or nothing, on every machine and disk, and no run of appends changes the mode
of a store that is there. -/
theorem append_all_or_nothing (d : Disk) (path : String) :
    (∀ (m : Machine) (r : Report),
      match append m d path r with
      | (d', some e) => Failed m d d' path e
      | (d', none) => ∃ p, Done m d d' path (storeText (records d path ++ [r.toRecord])) p) ∧
    ∀ (run : List (Machine × Report)) (k : Nat),
      d.mode path = .ok k → (appendEach path d run).mode path = .ok k := by
  refine ⟨?_, fun run k h => mode_appendEach h run⟩
  intro m r
  split
  · rename_i d' e h
    exact save_failed h
  · rename_i d' h
    exact save_done h

end SourceAudit.Store
