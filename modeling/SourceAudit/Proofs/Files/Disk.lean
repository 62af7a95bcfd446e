import Mathlib.Data.List.Induction
import SourceAudit.Files.Disk
import SourceAudit.Proofs.Files.Path

/-!
Entries by place, and paths on a disk that changes. A path leads where it led before as long as the
directories stay and something still stands at its end (`Leads.found`), and to what is put at a
free place that it led to (`Leads.vacant`). A path that does not go up leads to an entry wherever the
entry stands in directories (`Leads.of_rooted`). Making directories adds directories only
(`makeDirectories_grows`), and a move changes two places (`moved_of_move`).
-/

namespace SourceAudit.Files.Disk

/-! ### Entries -/

theorem get?_erase {p : Place} (hp : p ≠ []) (d : Disk) (q : Place) :
    (d.erase p).get? q = if q = p then none else d.get? q := by
  by_cases hq : q = p
  · subst hq
    simp [get?, erase, hp]
  · simp only [get?, erase, List.find?_filter, hq, ↓reduceIte]
    congr 3
    funext e
    by_cases he : e.1 = q <;> simp [he, hq]

theorem get?_put {p : Place} (hp : p ≠ []) (d : Disk) (e : Entry) (q : Place) :
    (d.put p e).get? q = if q = p then some e else d.get? q := by
  by_cases hq : q = p
  · subst hq
    simp [get?, put, hp]
  · have herase := get?_erase hp d q
    simp only [get?, hq, ↓reduceIte] at herase ⊢
    rw [← herase, put, List.find?_cons_of_neg (by simpa using Ne.symm hq)]

/-- Relative paths start from the same place on both disks, and permission bits hold on both or on
neither. -/
structure SameUse (d d' : Disk) : Prop where
  workingPlace : d'.workingPlace = d.workingPlace
  guarded : d'.guarded = d.guarded

theorem SameUse.refl (d : Disk) : SameUse d d := ⟨rfl, rfl⟩

theorem SameUse.symm {d d' : Disk} (h : SameUse d d') : SameUse d' d :=
  ⟨h.workingPlace.symm, h.guarded.symm⟩

theorem SameUse.trans {d d' d'' : Disk} (h : SameUse d d') (h' : SameUse d' d'') :
    SameUse d d'' :=
  ⟨h'.workingPlace.trans h.workingPlace, h'.guarded.trans h.guarded⟩

theorem SameUse.grants {d d' : Disk} (h : SameUse d d') : d'.grants = d.grants := by
  funext bit mode
  rw [Disk.grants, h.guarded, ← Disk.grants]

/-- The disks have the same entries everywhere but at one place. -/
structure SameBut (p : Place) (d d' : Disk) : Prop where
  sameUse : SameUse d d'
  get? : ∀ q, q ≠ p → d'.get? q = d.get? q

theorem SameBut.refl (p : Place) (d : Disk) : SameBut p d d := ⟨.refl d, fun _ _ => rfl⟩

theorem SameBut.put {p : Place} {d d' : Disk} (h : SameBut p d d') (hp : p ≠ []) (e : Entry) :
    SameBut p d (d'.put p e) := by
  refine ⟨h.sameUse.trans ⟨rfl, rfl⟩, ?_⟩
  intro q hq
  rw [get?_put hp, if_neg hq, h.get? q hq]

/-- Erasing what was put at a free place brings all entries back. -/
theorem SameBut.erase {p : Place} {d d' : Disk} (h : SameBut p d d') (hp : p ≠ [])
    (hfree : d.get? p = none) (q : Place) : (d'.erase p).get? q = d.get? q := by
  rw [get?_erase hp]
  split
  · rename_i hq
    rw [hq, hfree]
  · rename_i hq
    exact h.get? q hq

/-! ### Following a path -/

/-- A directory stands at the place. -/
def holdsDirectory (d : Disk) (p : Place) : Bool := (d.get? p).any Entry.isDirectory

theorem holdsDirectory_iff {d : Disk} {p : Place} :
    d.holdsDirectory p = true ↔ ∃ mode, d.get? p = some (.directory mode) := by
  unfold holdsDirectory
  cases d.get? p with
  | none => simp
  | some e => cases e <;> simp [Entry.isDirectory]

theorem isSome_of_holdsDirectory {d : Disk} {p : Place} (h : d.holdsDirectory p = true) :
    (d.get? p).isSome := by
  obtain ⟨mode, hp⟩ := holdsDirectory_iff.mp h
  rw [hp, Option.isSome_some]

theorem barrier?_eq_none {d : Disk} {p : Place} {part : List Char} :
    d.barrier? p part = none ↔
      ∃ mode, d.get? p = some (.directory mode) ∧ (part = [] ∨ d.grants searchBit mode = true) := by
  unfold barrier?
  cases d.get? p with
  | none => simp
  | some e => cases e <;> simp [Entry.directoryMode?, Classical.or_iff_not_imp_left]

theorem holdsDirectory_of_barrier? {d : Disk} {p : Place} {part : List Char}
    (h : d.barrier? p part = none) : d.holdsDirectory p = true := by
  obtain ⟨mode, hp, -⟩ := barrier?_eq_none.mp h
  exact holdsDirectory_iff.mpr ⟨mode, hp⟩

/-- Slashes alone are not barred from any directory. -/
theorem barrier?_nil {d : Disk} {p : Place} (h : d.holdsDirectory p = true) :
    d.barrier? p [] = none := by
  obtain ⟨mode, hp⟩ := holdsDirectory_iff.mp h
  exact barrier?_eq_none.mpr ⟨mode, hp, .inl rfl⟩

/-- Every directory stands where it stood, with the same mode. -/
structure KeepsDirectories (d d' : Disk) : Prop where
  sameUse : SameUse d d'
  get? : ∀ p mode, d.get? p = some (.directory mode) → d'.get? p = some (.directory mode)

theorem KeepsDirectories.trans {d d' d'' : Disk} (h : KeepsDirectories d d')
    (h' : KeepsDirectories d' d'') : KeepsDirectories d d'' :=
  ⟨h.sameUse.trans h'.sameUse, fun p mode hp => h'.get? p mode (h.get? p mode hp)⟩

theorem KeepsDirectories.holds {d d' : Disk} (h : KeepsDirectories d d') {p : Place}
    (hp : d.holdsDirectory p = true) : d'.holdsDirectory p = true := by
  obtain ⟨mode, hmode⟩ := holdsDirectory_iff.mp hp
  exact holdsDirectory_iff.mpr ⟨mode, h.get? p mode hmode⟩

/-- Where nothing bars a path, nothing bars it later. -/
theorem KeepsDirectories.barrier? {d d' : Disk} (h : KeepsDirectories d d') {p : Place}
    {part : List Char} (hp : d.barrier? p part = none) : d'.barrier? p part = none := by
  obtain ⟨mode, hmode, hopen⟩ := barrier?_eq_none.mp hp
  refine barrier?_eq_none.mpr ⟨mode, h.get? p mode hmode, ?_⟩
  rwa [h.sameUse.grants]

/-- A part of a path that can be the name of an entry. -/
def IsName (part : List Char) : Prop :=
  ¬ (part = [] ∨ part = ['.']) ∧ part ≠ ['.', '.'] ∧ (String.ofList part).utf8ByteSize ≤ longestName

/-- From a place on, the parts of a path lead to a spot. -/
inductive Leads (d : Disk) : Place → List (List Char) → Spot → Prop
  | here (p : Place) : Leads d p [] (.found p)
  | stay {p : Place} {part : List Char} {rest : List (List Char)} {spot : Spot}
      (hp : d.barrier? p part = none) (hpart : part = [] ∨ part = ['.'])
      (hrest : Leads d p rest spot) : Leads d p (part :: rest) spot
  | up {p : Place} {rest : List (List Char)} {spot : Spot} (hp : d.barrier? p ['.', '.'] = none)
      (hrest : Leads d p.dropLast rest spot) : Leads d p (['.', '.'] :: rest) spot
  | into {p : Place} {part : List Char} {rest : List (List Char)} {spot : Spot}
      (hp : d.barrier? p part = none) (hpart : IsName part)
      (hsome : (d.get? (p ++ [String.ofList part])).isSome)
      (hrest : Leads d (p ++ [String.ofList part]) rest spot) : Leads d p (part :: rest) spot
  | free {p : Place} {part : List Char} {rest : List (List Char)}
      (hp : d.barrier? p part = none) (hpart : IsName part)
      (hnone : d.get? (p ++ [String.ofList part]) = none) (hrest : ∀ q ∈ rest, q = []) :
      Leads d p (part :: rest) (.vacant (p ++ [String.ofList part]) (!rest.isEmpty))

theorem leads_of_follow {d : Disk} {p : Place} {parts : List (List Char)} {spot : Spot}
    (h : d.follow p parts = .ok spot) : Leads d p parts spot := by
  induction parts generalizing p with
  | nil =>
    cases h
    exact .here p
  | cons part rest ih =>
    rw [follow] at h
    split at h
    · cases h
    rename_i hp
    split at h
    · rename_i hpart
      exact .stay hp hpart (ih h)
    rename_i hdot
    split at h
    · rename_i hpart
      subst hpart
      exact .up hp (ih h)
    rename_i hdots
    dsimp only at h
    split at h
    · cases h
    rename_i hsize
    have hpart : IsName part := ⟨hdot, hdots, Nat.le_of_not_lt hsize⟩
    split at h
    · rename_i hsome
      exact .into hp hpart hsome (ih h)
    rename_i hnone
    split at h
    · rename_i hrest
      cases h
      exact .free hp hpart (by simpa using hnone) (by simpa using hrest)
    · cases h

theorem follow_of_leads {d : Disk} {p : Place} {parts : List (List Char)} {spot : Spot}
    (h : Leads d p parts spot) : d.follow p parts = .ok spot := by
  induction h with
  | here p => rfl
  | stay hp hpart hrest ih => simp [follow, hp, hpart, ih]
  | up hp hrest ih => simp [follow, hp, ih]
  | into hp hpart hsome hrest ih =>
    obtain ⟨hdot, hdots, hsize⟩ := hpart
    simp [follow, hp, hdot, hdots, Nat.not_lt.mpr hsize, hsome, ih]
  | free hp hpart hnone hrest =>
    obtain ⟨hdot, hdots, hsize⟩ := hpart
    simpa [follow, hp, hdot, hdots, Nat.not_lt.mpr hsize, hnone] using hrest

/-- Following a path asks no more than what is there, what is a directory, and of which mode. -/
theorem follow_congr {d d' : Disk} (huse : SameUse d d')
    (h : ∀ p, (d'.get? p).map Entry.directoryMode? = (d.get? p).map Entry.directoryMode?)
    (p : Place) (parts : List (List Char)) : d'.follow p parts = d.follow p parts := by
  have hsome (p : Place) : (d'.get? p).isSome = (d.get? p).isSome := by
    have := congrArg Option.isSome (h p)
    simpa using this
  have hbarrier (p : Place) (part : List Char) : d'.barrier? p part = d.barrier? p part := by
    have hmode : (d'.get? p).bind Entry.directoryMode? =
        (d.get? p).bind Entry.directoryMode? := by
      simpa [Option.bind_map, Function.comp_def] using congrArg (Option.bind · id) (h p)
    rw [Disk.barrier?, huse.grants, hmode, ← Disk.barrier?]
  induction parts generalizing p with
  | nil => rfl
  | cons part rest ih => simp only [follow, hbarrier, hsome, ih]

/-- A path goes on from directories only. -/
theorem Leads.start {d : Disk} {p : Place} {parts : List (List Char)} {spot : Spot}
    (h : Leads d p parts spot) : parts = [] ∧ spot = .found p ∨ d.holdsDirectory p = true := by
  cases h with
  | here => exact .inl ⟨rfl, rfl⟩
  | stay hp | up hp | into hp | free hp => exact .inr (holdsDirectory_of_barrier? hp)

/-- A path leads where it led if the directories stay and something still stands at its end. -/
theorem Leads.found {d d' : Disk} {p q : Place} {parts : List (List Char)}
    (h : Leads d p parts (.found q)) (hk : KeepsDirectories d d') (hq : (d'.get? q).isSome) :
    Leads d' p parts (.found q) := by
  generalize hspot : Spot.found q = spot at h
  induction h with
  | here p => exact .here p
  | stay hp hpart hrest ih => exact .stay (hk.barrier? hp) hpart (ih hspot)
  | up hp hrest ih => exact .up (hk.barrier? hp) (ih hspot)
  | into hp hpart hsome hrest ih =>
    refine .into (hk.barrier? hp) hpart ?_ (ih hspot)
    -- the entry with this name is the end of the path or a directory on the way
    rcases hrest.start with ⟨-, hend⟩ | hdir
    · rw [← hspot] at hend
      cases hend
      exact hq
    · exact isSome_of_holdsDirectory (hk.holds hdir)
  | free => cases hspot

theorem leads_blank {d : Disk} {p : Place} {parts : List (List Char)} (h : ∀ q ∈ parts, q = [])
    (hp : parts ≠ [] → d.holdsDirectory p = true) : Leads d p parts (.found p) := by
  induction parts with
  | nil => exact .here p
  | cons part rest ih =>
    have hdir := hp (by simp)
    obtain rfl := h part (by simp)
    exact .stay (barrier?_nil hdir) (.inl rfl) (ih (fun q hq => h q (by simp [hq])) fun _ => hdir)

/-- A path that led to a free place leads to the entry that is put there. -/
theorem Leads.vacant {d d' : Disk} {p q : Place} {parts : List (List Char)} {slash : Bool}
    (h : Leads d p parts (.vacant q slash)) (hk : KeepsDirectories d d')
    (hq : (d'.get? q).isSome) (hslash : slash = true → d'.holdsDirectory q = true) :
    Leads d' p parts (.found q) := by
  generalize hspot : Spot.vacant q slash = spot at h
  induction h with
  | here => cases hspot
  | stay hp hpart hrest ih => exact .stay (hk.barrier? hp) hpart (ih hspot)
  | up hp hrest ih => exact .up (hk.barrier? hp) (ih hspot)
  | into hp hpart hsome hrest ih =>
    refine .into (hk.barrier? hp) hpart ?_ (ih hspot)
    rcases hrest.start with ⟨-, hend⟩ | hdir
    · rw [← hspot] at hend
      cases hend
    · exact isSome_of_holdsDirectory (hk.holds hdir)
  | free hp hpart hnone hrest =>
    cases hspot
    refine .into (hk.barrier? hp) hpart hq (leads_blank hrest ?_)
    intro hne
    exact hslash (by simpa using hne)

theorem Leads.free_of_vacant {d : Disk} {p q : Place} {parts : List (List Char)} {slash : Bool}
    (h : Leads d p parts (.vacant q slash)) : q ≠ [] ∧ d.get? q = none := by
  generalize hspot : Spot.vacant q slash = spot at h
  induction h with
  | here => cases hspot
  | stay hp hpart hrest ih => exact ih hspot
  | up hp hrest ih => exact ih hspot
  | into hp hpart hsome hrest ih => exact ih hspot
  | free hp hpart hnone hrest =>
    cases hspot
    exact ⟨by simp, hnone⟩

/-- A path whose last part is a name leads to an entry of this name or to the free place for it. -/
theorem Leads.last {d : Disk} {p : Place} {init : List (List Char)} {part : List Char}
    {spot : Spot} (hdot : ¬ (part = [] ∨ part = ['.'])) (hdots : part ≠ ['.', '.'])
    (h : Leads d p (init ++ [part]) spot) :
    ∃ q, spot = .found (q ++ [String.ofList part]) ∧ (d.get? (q ++ [String.ofList part])).isSome ∨
      spot = .vacant (q ++ [String.ofList part]) false ∧
        d.get? (q ++ [String.ofList part]) = none := by
  generalize hparts : init ++ [part] = parts at h
  induction h generalizing init with
  | here => simp at hparts
  | @stay p part' rest spot hp hpart hrest ih =>
    cases init with
    | nil =>
      obtain ⟨rfl, -⟩ := List.cons_eq_cons.mp hparts
      exact absurd hpart hdot
    | cons first init => exact ih (List.cons_eq_cons.mp hparts).2
  | @up p rest spot hp hrest ih =>
    cases init with
    | nil => exact absurd (List.cons_eq_cons.mp hparts).1 hdots
    | cons first init => exact ih (List.cons_eq_cons.mp hparts).2
  | @into p part' rest spot hp hpart hsome hrest ih =>
    cases init with
    | nil =>
      obtain ⟨rfl, rfl⟩ := List.cons_eq_cons.mp hparts
      cases hrest
      exact ⟨p, .inl ⟨rfl, hsome⟩⟩
    | cons first init => exact ih (List.cons_eq_cons.mp hparts).2
  | @free p part' rest hp hpart hnone hrest =>
    cases init with
    | nil =>
      obtain ⟨rfl, rfl⟩ := List.cons_eq_cons.mp hparts
      exact ⟨p, .inr ⟨rfl, hnone⟩⟩
    | cons first init =>
      obtain ⟨-, rfl⟩ := List.cons_eq_cons.mp hparts
      exact absurd (.inl (hrest part (by simp))) hdot

theorem leads_of_locate {d : Disk} {path : String} {spot : Spot} (h : d.locate path = .ok spot) :
    ∃ p, Leads d p (Path.parts path) spot := by
  unfold locate at h
  split at h
  · cases h
  split at h
  · cases h
  split at h
  · cases h
  exact ⟨_, leads_of_follow h⟩

/-- What the parts of a path lead to decides where the path leads. -/
theorem locate_of_leads {d d' : Disk} {path : String} {spot spot' : Spot}
    (h : d.locate path = .ok spot) (hplace : d'.workingPlace = d.workingPlace)
    (hleads : ∀ p, Leads d p (Path.parts path) spot → Leads d' p (Path.parts path) spot') :
    d'.locate path = .ok spot' := by
  unfold locate at h ⊢
  split at h
  · cases h
  rename_i hempty
  split at h
  · cases h
  rename_i hnul
  split at h
  · cases h
  rename_i hlong
  rw [if_neg hempty, if_neg hnul, if_neg hlong, hplace]
  exact follow_of_leads (hleads _ (leads_of_follow h))

theorem locate_found {d d' : Disk} {path : String} {p : Place} (hk : KeepsDirectories d d')
    (h : d.locate path = .ok (.found p)) (hp : (d'.get? p).isSome) :
    d'.locate path = .ok (.found p) :=
  locate_of_leads h hk.sameUse.workingPlace fun _ hl => hl.found hk hp

theorem locate_vacant {d d' : Disk} {path : String} {p : Place} {slash : Bool}
    (hk : KeepsDirectories d d') (h : d.locate path = .ok (.vacant p slash))
    (hp : (d'.get? p).isSome) (hslash : slash = true → d'.holdsDirectory p = true) :
    d'.locate path = .ok (.found p) :=
  locate_of_leads h hk.sameUse.workingPlace fun _ hl => hl.vacant hk hp hslash

theorem locate_congr {d d' : Disk} (huse : SameUse d d')
    (h : ∀ p, (d'.get? p).map Entry.directoryMode? = (d.get? p).map Entry.directoryMode?)
    (path : String) : d'.locate path = d.locate path := by
  simp only [locate, huse.workingPlace, follow_congr huse h]

theorem entry_eq_ok {d : Disk} {path : String} {p : Place} {e : Entry} :
    d.entry path = .ok (p, e) ↔ d.locate path = .ok (.found p) ∧ d.get? p = some e := by
  unfold entry
  split
  · rename_i h
    simp [h]
  · rename_i h
    simp [h]
  · rename_i q h
    rw [h]
    constructor
    · intro he
      split at he
      · cases he
      · rename_i e' hq
        cases he
        exact ⟨rfl, hq⟩
    · rintro ⟨hq, hp⟩
      cases hq
      rw [hp]

/-- Disks with the same entries have them at the ends of the same paths. -/
theorem entry_congr {d d' : Disk} (huse : SameUse d d') (h : ∀ p, d'.get? p = d.get? p)
    (path : String) : d'.entry path = d.entry path := by
  unfold entry
  simp only [locate_congr huse fun p => by rw [h p], h]

theorem has_of_entry {d : Disk} {path : String} {x : Place × Entry} (h : d.entry path = .ok x) :
    d.has path = true := by
  simp [has, h, Except.isOk, Except.toBool]

theorem has_root (d : Disk) : d.has "/" = true := by
  have hparts : Path.parts "/" = [[], []] := by decide
  have hroot : d.holdsDirectory [] = true := rfl
  have hlead : d.locate "/" = .ok (.found []) := by
    rw [locate, hparts]
    exact follow_of_leads (leads_blank (by simp) fun _ => hroot)
  exact has_of_entry (entry_eq_ok.mpr ⟨hlead, rfl⟩)

/-! ### Making directories -/

/-- A new directory stands at the place, and one of the paths leads to it. -/
def IsNewDirectory (paths : List String) (d d' : Disk) (p : Place) : Prop :=
  d.get? p = none ∧ d'.get? p = some (.directory directoryMode) ∧
    ∃ path ∈ paths, d'.locate path = .ok (.found p)

/-- The second disk has new directories at the ends of some of the paths, and is else the first. -/
structure Grows (paths : List String) (d d' : Disk) : Prop where
  sameUse : SameUse d d'
  get? : ∀ p, d'.get? p = d.get? p ∨ IsNewDirectory paths d d' p

theorem Grows.keepsDirectories {paths : List String} {d d' : Disk} (h : Grows paths d d') :
    KeepsDirectories d d' := by
  refine ⟨h.sameUse, ?_⟩
  intro p mode hp
  rcases h.get? p with hsame | ⟨hnone, -, -⟩
  · rwa [hsame]
  · rw [hnone] at hp
    cases hp

theorem Grows.refl (paths : List String) (d : Disk) : Grows paths d d :=
  ⟨.refl d, fun _ => .inl rfl⟩

theorem Grows.mono {paths more : List String} {d d' : Disk} (h : Grows paths d d')
    (hsub : paths ⊆ more) : Grows more d d' := by
  refine ⟨h.sameUse, ?_⟩
  intro p
  rcases h.get? p with hsame | ⟨hnone, hdir, path, hpath, hlead⟩
  · exact .inl hsame
  · exact .inr ⟨hnone, hdir, path, hsub hpath, hlead⟩

theorem Grows.trans {paths : List String} {d d' d'' : Disk} (h : Grows paths d d')
    (h' : Grows paths d' d'') : Grows paths d d'' := by
  refine ⟨h.sameUse.trans h'.sameUse, ?_⟩
  intro p
  rcases h'.get? p with hsame' | ⟨hnone', hdir', hlead'⟩
  · rcases h.get? p with hsame | ⟨hnone, hdir, path, hpath, hlead⟩
    · exact .inl (hsame'.trans hsame)
    · have hdir'' := hsame'.trans hdir
      exact .inr ⟨hnone, hdir'', path, hpath,
        locate_found h'.keepsDirectories hlead (by rw [hdir'']; rfl)⟩
  · rcases h.get? p with hsame | ⟨-, hdir, -⟩
    · exact .inr ⟨hsame ▸ hnone', hdir', hlead'⟩
    · rw [hdir] at hnone'
      cases hnone'

theorem Grows.of_same {paths : List String} {d d' : Disk} (huse : SameUse d d')
    (h : ∀ p, d'.get? p = d.get? p) : Grows paths d d' :=
  ⟨huse, fun p => .inl (h p)⟩

/-- Every path that led to an entry leads to the same entry. -/
theorem Grows.entry {paths : List String} {d d' : Disk} (h : Grows paths d d') {other : String}
    {x : Place × Entry} (hx : d.entry other = .ok x) : d'.entry other = .ok x := by
  obtain ⟨p, e⟩ := x
  obtain ⟨hlead, hp⟩ := entry_eq_ok.mp hx
  have hp' : d'.get? p = some e := by
    rcases h.get? p with hsame | ⟨hnone, -, -⟩
    · rw [hsame, hp]
    · rw [hp] at hnone
      cases hnone
  exact entry_eq_ok.mpr ⟨locate_found h.keepsDirectories hlead (by simp [hp']), hp'⟩

/-! ### Going down -/

/-- Every entry stands in a directory. -/
def Rooted (d : Disk) : Prop :=
  ∀ p, p ≠ [] → (d.get? p).isSome → d.holdsDirectory p.dropLast = true

/-- The places above an entry are directories. -/
theorem Rooted.holds {d : Disk} (h : d.Rooted) {p q : Place} (hpq : p <+: q) (hne : p ≠ q)
    (hq : (d.get? q).isSome) : d.holdsDirectory p = true := by
  obtain ⟨names, rfl⟩ := hpq
  induction names using List.reverseRecOn with
  | nil => exact absurd (List.append_nil p).symm hne
  | append_singleton names name ih =>
    have habove : d.holdsDirectory (p ++ names) = true := by
      have hdrop := h (p ++ (names ++ [name])) (by simp) hq
      rwa [← List.append_assoc, List.dropLast_concat] at hdrop
    by_cases hnames : p = p ++ names
    · rwa [← hnames] at habove
    · exact ih hnames (isSome_of_holdsDirectory habove)

/-- A path without two dots leads to a place below the one it starts from. -/
theorem Leads.goesDown {d : Disk} {p q : Place} {parts : List (List Char)}
    (h : Leads d p parts (.found q)) (hdown : ['.', '.'] ∉ parts) : p <+: q := by
  generalize hspot : Spot.found q = spot at h
  induction h with
  | here p =>
    cases hspot
    exact List.prefix_refl _
  | stay hp hpart hrest ih => exact ih (fun hmem => hdown (List.mem_cons_of_mem _ hmem)) hspot
  | up hp hrest => exact absurd List.mem_cons_self hdown
  | into hp hpart hsome hrest ih =>
    exact (List.prefix_append _ _).trans
      (ih (fun hmem => hdown (List.mem_cons_of_mem _ hmem)) hspot)
  | free => cases hspot

/-- Such a path leads to an entry wherever the entry stands in directories. -/
theorem Leads.of_rooted {d d' : Disk} (hr : d.Rooted) (hk : KeepsDirectories d d') {p q : Place}
    {parts : List (List Char)} (h : Leads d' p parts (.found q)) (hdown : ['.', '.'] ∉ parts)
    (hq : d'.get? q = d.get? q) (hsome : (d.get? q).isSome) : Leads d p parts (.found q) := by
  have hopen {p : Place} {part : List Char} (hp : d'.barrier? p part = none) (hpq : p <+: q) :
      d.barrier? p part = none := by
    have hsame : d'.get? p = d.get? p := by
      by_cases hne : p = q
      · rwa [hne]
      · obtain ⟨mode, hmode⟩ := holdsDirectory_iff.mp (hr.holds hpq hne hsome)
        rw [hmode, hk.get? p mode hmode]
    rwa [Disk.barrier?, hsame, hk.sameUse.grants, ← Disk.barrier?] at hp
  generalize hspot : Spot.found q = spot at h
  induction h with
  | here p =>
    cases hspot
    exact .here _
  | @stay p part rest spot hp hpart hrest ih =>
    subst hspot
    have hdown' : ['.', '.'] ∉ rest := fun hmem => hdown (List.mem_cons_of_mem _ hmem)
    exact .stay (hopen hp (hrest.goesDown hdown')) hpart (ih hdown' rfl)
  | up hp hrest => exact absurd List.mem_cons_self hdown
  | @into p part rest spot hp hpart hsome' hrest ih =>
    subst hspot
    have hdown' : ['.', '.'] ∉ rest := fun hmem => hdown (List.mem_cons_of_mem _ hmem)
    have hbelow := hrest.goesDown hdown'
    refine .into (hopen hp ((List.prefix_append _ _).trans hbelow)) hpart ?_ (ih hdown' rfl)
    by_cases hend : p ++ [String.ofList part] = q
    · rwa [hend]
    · exact isSome_of_holdsDirectory (hr.holds hbelow hend hsome)
  | free => cases hspot

theorem makeDirectory_cases {d d' : Disk} {path : String} (h : d.makeDirectory path = .ok d') :
    ∃ p, p ≠ [] ∧ d.get? p = none ∧ d' = d.put p (.directory directoryMode) ∧
      d'.locate path = .ok (.found p) := by
  unfold makeDirectory at h
  split at h
  · cases h
  · cases h
  rename_i p slash hlead
  cases h
  obtain ⟨start, hl⟩ := leads_of_locate hlead
  obtain ⟨hp, hnone⟩ := hl.free_of_vacant
  refine ⟨p, hp, hnone, rfl, ?_⟩
  have hdir : (d.put p (.directory directoryMode)).get? p = some (.directory directoryMode) := by
    rw [get?_put hp, if_pos rfl]
  have hkeep : KeepsDirectories d (d.put p (.directory directoryMode)) := by
    refine ⟨⟨rfl, rfl⟩, ?_⟩
    intro q mode hq
    rw [get?_put hp]
    split
    · rename_i hqp
      rw [hqp, hnone] at hq
      cases hq
    · exact hq
  have hholds : (d.put p (.directory directoryMode)).holdsDirectory p = true := by
    simp [holdsDirectory, hdir, Entry.isDirectory]
  exact locate_vacant hkeep hlead (isSome_of_holdsDirectory hholds) fun _ => hholds

theorem makeDirectory_grows {d d' : Disk} {path : String} (h : d.makeDirectory path = .ok d') :
    Grows [path] d d' := by
  obtain ⟨p, hp, hnone, rfl, hlead⟩ := makeDirectory_cases h
  refine ⟨⟨rfl, rfl⟩, ?_⟩
  intro q
  rw [get?_put hp]
  split
  · rename_i hq
    subst hq
    exact .inr ⟨hnone, by rw [get?_put hp, if_pos rfl], path, by simp, hlead⟩
  · exact .inl rfl

theorem makeDirectory_has {d d' : Disk} {path : String} (h : d.makeDirectory path = .ok d') :
    d'.has path = true := by
  obtain ⟨p, hp, -, rfl, hlead⟩ := makeDirectory_cases h
  exact has_of_entry (entry_eq_ok.mpr ⟨hlead, by rw [get?_put hp, if_pos rfl]⟩)

theorem makeDirectory_of_try {refuse : String → Option Fault} {d d' : Disk} {path : String}
    (h : d.tryDirectory refuse path = .ok d') : d.makeDirectory path = .ok d' := by
  unfold tryDirectory at h
  split at h
  · cases h
  rename_i hmake
  split at h
  · cases h
  · cases h
    exact hmake

theorem entry_of_isDirectory {d : Disk} {path : String} (h : d.isDirectory path = true) :
    ∃ x, d.entry path = .ok x := by
  unfold isDirectory at h
  split at h
  · rename_i hentry
    exact ⟨_, hentry⟩
  · cases h

theorem has_of_isDirectory {d : Disk} {path : String} (h : d.isDirectory path = true) :
    d.has path = true := by
  obtain ⟨x, hentry⟩ := entry_of_isDirectory h
  exact has_of_entry hentry

/-- Whether or not all directories could be made, only they are new. -/
theorem makeDirectories_grows (refuse : String → Option Fault) (d : Disk) (paths : List String) :
    Grows paths d (d.makeDirectories refuse paths).1 := by
  induction paths with
  | nil => exact .refl [] d
  | cons path above ih =>
    rw [makeDirectories]
    split
    · rename_i htry
      exact (makeDirectory_grows (makeDirectory_of_try htry)).mono (by simp)
    · have habove : Grows (path :: above) d (d.makeDirectories refuse above).1 :=
        ih.mono (by simp)
      split
      · rename_i heq
        rwa [heq] at habove
      · rename_i d' heq
        rw [heq] at habove
        split
        · rename_i htry
          exact habove.trans ((makeDirectory_grows (makeDirectory_of_try htry)).mono (by simp))
        · split
          · exact habove
          · exact habove
    · split
      · exact .refl _ d
      · exact .refl _ d

/-- If the directories could be made, the first of them is there. -/
theorem makeDirectories_has {refuse : String → Option Fault} {d d' : Disk} {path : String}
    {above : List String} (h : d.makeDirectories refuse (path :: above) = (d', none)) :
    d'.has path = true := by
  rw [makeDirectories] at h
  split at h
  · rename_i htry
    cases h
    exact makeDirectory_has (makeDirectory_of_try htry)
  · split at h
    · cases h
    · split at h
      · rename_i htry
        cases h
        exact makeDirectory_has (makeDirectory_of_try htry)
      · split at h
        · rename_i hdir
          cases h
          exact has_of_isDirectory hdir
        · cases h
  · split at h
    · rename_i hdir
      cases h
      exact has_of_isDirectory hdir
    · cases h

/-! ### Moving a file -/

theorem locateTrimmed_eq_locate {path : String} (h : Path.endsInSlash path = false) (d : Disk) :
    d.locateTrimmed path = d.locate path := by
  simp [locateTrimmed, Path.trimSlashes_eq_self h]

/-- What a move does: the path leads to a file, or to a free place, of another name than that of the
source, and there the entry goes. -/
theorem move_cases {d d' : Disk} {source : Place} {path : String}
    (hname : source.getLast? ≠ some (String.ofList (Path.lastPart path)))
    (h : d.move source path = .ok d') :
    ∃ e p, d.get? source = some e ∧ p ≠ [] ∧ p ≠ source ∧ d' = (d.erase source).put p e ∧
      ((∃ old, d.entry path = .ok (p, old) ∧ old.isDirectory = false) ∨
        d.locate path = .ok (.vacant p false) ∧ d.get? p = none) := by
  unfold move at h
  split at h
  · cases h
  rename_i e he
  split at h
  · cases h
  · cases h
  rename_i spot hspot
  split at h
  · cases h
  rename_i hlast
  split at h
  · cases h
  rename_i hslash
  have hslash : Path.endsInSlash path = false := by simpa using hslash
  rw [← or_assoc, not_or] at hlast
  rw [locateTrimmed_eq_locate hslash] at hspot
  obtain ⟨init, hparts⟩ := Path.parts_eq_append_lastPart hslash (fun hnil => hlast.1 (.inl hnil))
  obtain ⟨start, hl⟩ := leads_of_locate hspot
  rw [hparts] at hl
  obtain ⟨q, hq⟩ := hl.last hlast.1 hlast.2
  have hne : q ++ [String.ofList (Path.lastPart path)] ≠ source := by
    rintro rfl
    simp at hname
  refine ⟨e, q ++ [String.ofList (Path.lastPart path)], he, by simp, hne, ?_⟩
  rcases hq with ⟨rfl, hsome⟩ | ⟨rfl, hnone⟩
  · obtain ⟨old, hold⟩ := Option.isSome_iff_exists.mp hsome
    dsimp only at h
    split at h
    · cases h
    rename_i hfile
    cases h
    exact ⟨rfl, .inl ⟨old, entry_eq_ok.mpr ⟨hspot, hold⟩, by simpa [hold] using hfile⟩⟩
  · cases h
    exact ⟨rfl, .inr ⟨hspot, hnone⟩⟩

/-- The file at the source has been moved to a place that the path leads to. -/
structure Moved (source : Place) (path : String) (d d' : Disk) (p : Place) : Prop where
  leads : d'.locate path = .ok (.found p)
  get?_self : d'.get? p = d.get? source
  get?_other : ∀ q, q ≠ p → d'.get? q = if q = source then none else d.get? q
  sameUse : SameUse d d'
  other : p ≠ source
  wasFile : d.holdsDirectory p = false
  /-- Where the path led before. -/
  before : (∃ old, d.entry path = .ok (p, old)) ∨
    d.locate path = .ok (.vacant p false) ∧ d.get? p = none

theorem moved_of_move {d d' : Disk} {source : Place} {path : String} (hsource : source ≠ [])
    (hname : source.getLast? ≠ some (String.ofList (Path.lastPart path)))
    (hfile : d.holdsDirectory source = false) (h : d.move source path = .ok d') :
    ∃ p, Moved source path d d' p := by
  obtain ⟨e, p, he, hp, hps, rfl, hcase⟩ := move_cases hname h
  have hself : ((d.erase source).put p e).get? p = some e := by rw [get?_put hp, if_pos rfl]
  have hother (q : Place) (hq : q ≠ p) :
      ((d.erase source).put p e).get? q = if q = source then none else d.get? q := by
    rw [get?_put hp, if_neg hq, get?_erase hsource]
  have hwas : d.holdsDirectory p = false := by
    rcases hcase with ⟨old, hentry, hold⟩ | ⟨-, hnone⟩
    · simp [holdsDirectory, (entry_eq_ok.mp hentry).2, hold]
    · simp [holdsDirectory, hnone]
  -- neither the source nor the place it goes to is a directory
  have hkeep : KeepsDirectories d ((d.erase source).put p e) := by
    refine ⟨⟨rfl, rfl⟩, ?_⟩
    intro q mode hq
    have hdir := holdsDirectory_iff.mpr ⟨mode, hq⟩
    have hqp : q ≠ p := by
      rintro rfl
      simp [hwas] at hdir
    have hqs : q ≠ source := by
      rintro rfl
      simp [hfile] at hdir
    rwa [hother q hqp, if_neg hqs]
  have hsome : (((d.erase source).put p e).get? p).isSome := by simp [hself]
  refine ⟨p, ?_, hself.trans he.symm, hother, ⟨rfl, rfl⟩, hps, hwas, ?_⟩
  · rcases hcase with ⟨old, hentry, -⟩ | ⟨hvacant, -⟩
    · exact locate_found hkeep (entry_eq_ok.mp hentry).1 hsome
    · exact locate_vacant hkeep hvacant hsome (by simp)
  · rcases hcase with ⟨old, hentry, -⟩ | hvacant
    · exact .inl ⟨old, hentry⟩
    · exact .inr hvacant

end SourceAudit.Files.Disk
