import SourceAudit.Proofs.Files.Disk

/-!
Reading a file. What a file holds and whether it may be read are two things: a text is read exactly
if a file with it stands at the end of the path and the mode of the file grants it
(`readText_eq_ok`). What may not be read is not read, whatever it holds.
-/

namespace SourceAudit.Files.Disk

variable {d d' : Disk} {path text : String}

/-- What stands at the end of the path, if anything does, may be read. -/
def Readable (d : Disk) (path : String) : Prop :=
  ∀ mode, d.mode path = .ok mode → d.grants readBit mode = true

/-- A file with the text stands at the end of the path, whether or not it may be read. -/
def HoldsText (d : Disk) (path text : String) : Prop :=
  ∃ p mode, d.entry path = .ok (p, .file mode text.toUTF8)

theorem mode_eq_ok {mode : Nat} :
    d.mode path = .ok mode ↔ ∃ p e, d.entry path = .ok (p, e) ∧ e.mode = mode := by
  unfold Disk.mode
  cases d.entry path with
  | error f => simp
  | ok x =>
    obtain ⟨p, e⟩ := x
    simp [and_assoc]

/-- Whether something that is there may be read hangs on its mode. -/
theorem readable_iff {mode : Nat} (h : d.mode path = .ok mode) :
    d.Readable path ↔ d.grants readBit mode = true := by
  unfold Readable
  simp [h]

theorem readable_iff_of_entry {p : Place} {e : Entry} (h : d.entry path = .ok (p, e)) :
    d.Readable path ↔ d.grants readBit e.mode = true :=
  readable_iff (mode_eq_ok.mpr ⟨p, e, h, rfl⟩)

theorem fromUTF8?_toUTF8 (s : String) : String.fromUTF8? s.toUTF8 = some s :=
  dif_pos s.isValidUTF8

theorem toUTF8_of_fromUTF8? {bytes : ByteArray} {s : String}
    (h : String.fromUTF8? bytes = some s) : s.toUTF8 = bytes := by
  unfold String.fromUTF8? at h
  split at h
  · cases h
    rfl
  · cases h

theorem readText_eq_ok :
    d.readText path = .ok text ↔ d.HoldsText path text ∧ d.Readable path := by
  unfold readText read
  constructor
  · intro h
    cases hentry : d.entry path with
    | error f => simp [hentry] at h
    | ok x =>
      obtain ⟨p, e⟩ := x
      simp only [hentry] at h
      cases hgrants : d.grants readBit e.mode with
      | false => simp [hgrants] at h
      | true =>
        have hread := (readable_iff_of_entry hentry).mpr hgrants
        cases e with
        | directory mode => simp [hgrants] at h
        | file mode content =>
          simp only [hgrants, Bool.not_true, Bool.false_eq_true, if_false] at h
          split at h
          · cases h
          · rename_i s hs
            cases h
            exact ⟨⟨p, mode, by rw [hentry, toUTF8_of_fromUTF8? hs]⟩, hread⟩
  · rintro ⟨⟨p, mode, hentry⟩, hread⟩
    have hgrants := (readable_iff_of_entry hentry).mp hread
    rw [Entry.mode] at hgrants
    simp only [hentry, Entry.mode, hgrants, Bool.not_true, Bool.false_eq_true, if_false,
      fromUTF8?_toUTF8]

theorem HoldsText.unique {other : String} (h : d.HoldsText path text)
    (h' : d.HoldsText path other) : text = other := by
  obtain ⟨p, mode, hentry⟩ := h
  obtain ⟨q, mode', hentry'⟩ := h'
  rw [hentry] at hentry'
  simp only [Except.ok.injEq, Prod.mk.injEq, Entry.file.injEq] at hentry'
  have hsame := congrArg String.fromUTF8? hentry'.2.2
  rw [fromUTF8?_toUTF8, fromUTF8?_toUTF8] at hsame
  exact Option.some.inj hsame

/-- What may not be read is not read. -/
theorem read_of_not_readable (h : ¬ d.Readable path) : d.read path = .error .denied := by
  simp only [Readable, not_forall, Bool.not_eq_true] at h
  obtain ⟨mode, hmode, hgrants⟩ := h
  obtain ⟨p, e, hentry, rfl⟩ := mode_eq_ok.mp hmode
  simp [read, hentry, hgrants]

theorem readText_of_not_readable (h : ¬ d.Readable path) :
    d.readText path = .error .denied := by
  rw [readText, read_of_not_readable h]

theorem readText_of_entry_error {f : Fault} (h : d.entry path = .error f) :
    d.readText path = .error f := by
  simp only [readText, read, h]

theorem readText_of_directory {p : Place} {mode : Nat}
    (h : d.entry path = .ok (p, .directory mode)) : ∃ f, d.readText path = .error f := by
  cases hread : d.readText path with
  | error f => exact ⟨f, rfl⟩
  | ok text =>
    obtain ⟨⟨q, mode', hentry⟩, -⟩ := readText_eq_ok.mp hread
    rw [h] at hentry
    cases hentry

/-- Reading looks at the entry at the end of the path only, and at its mode. -/
theorem readText_congr (huse : SameUse d d') (h : d'.entry path = d.entry path) :
    d'.readText path = d.readText path := by
  simp only [readText, read, h, huse.grants]

end SourceAudit.Files.Disk
