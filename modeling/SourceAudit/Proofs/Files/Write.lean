import SourceAudit.Proofs.Files.Disk

/-!
Writing a file. Whether a file can be written at a path does not depend on what is written, and what
has been written stands at the end of the path (`write_cases`).
-/

namespace SourceAudit.Files

theorem splitSlash_ne_nil (cs : List Char) : splitSlash cs ≠ [] := by
  cases cs with
  | nil => simp [splitSlash]
  | cons c cs =>
    rw [splitSlash]
    split
    · exact List.cons_ne_nil _ _
    · split <;> exact List.cons_ne_nil _ _

/-- The last part of a text is empty only if the text is, or ends with a slash. -/
theorem getLast?_of_splitSlash {cs : List Char} (h : (splitSlash cs).getLast? = some []) :
    cs = [] ∨ cs.getLast? = some '/' := by
  fun_induction splitSlash cs with
  | case1 => exact .inl rfl
  | case2 rest ih =>
    right
    have hlast := List.getLast?_eq_some_getLast (splitSlash_ne_nil rest)
    rw [List.getLast?_cons, hlast, Option.getD_some] at h
    rcases ih (hlast.trans h) with rfl | hrest
    · rfl
    · rw [List.getLast?_cons, hrest, Option.getD_some]
  | case3 c rest hc hrest ih => exact absurd hrest (splitSlash_ne_nil rest)
  | case4 c rest hc p ps hrest ih =>
    right
    cases ps with
    | nil => simp at h
    | cons q ps =>
      rw [List.getLast?_cons_cons] at h
      rw [hrest, List.getLast?_cons_cons] at ih
      rcases ih h with rfl | hlast
      · simp [splitSlash] at hrest
      · rw [List.getLast?_cons, hlast, Option.getD_some]

namespace Disk

/-- A path leads to a free place with a slash behind it only if its last part is empty. -/
theorem Leads.getLast?_of_slash {d : Disk} {p q : Place} {parts : List (List Char)}
    (h : Leads d p parts (.vacant q true)) : parts.getLast? = some [] := by
  generalize hspot : Spot.vacant q true = spot at h
  induction h with
  | here => cases hspot
  | stay hp hpart hrest ih => rw [List.getLast?_cons, ih hspot, Option.getD_some]
  | up hp hrest ih => rw [List.getLast?_cons, ih hspot, Option.getD_some]
  | into hp hpart hsome hrest ih => rw [List.getLast?_cons, ih hspot, Option.getD_some]
  | @free p part rest hp hpart hnone hrest =>
    obtain ⟨-, hslash⟩ := Spot.vacant.inj hspot
    have hne : rest ≠ [] := by simpa using hslash
    rw [List.getLast?_cons, List.getLast?_eq_some_getLast hne, Option.getD_some,
      hrest _ (List.getLast_mem hne)]

theorem locate_vacant_slash {d : Disk} {path : String} {p : Place} {slash : Bool}
    (hslash : Path.endsInSlash path = false) (h : d.locate path = .ok (.vacant p slash)) :
    slash = false := by
  cases slash with
  | false => rfl
  | true =>
    obtain ⟨start, hleads⟩ := leads_of_locate h
    rcases getLast?_of_splitSlash hleads.getLast?_of_slash with hnil | hlast
    · have hempty : path = "" := by simpa using hnil
      simp [locate, hempty] at h
    · simp [Path.endsInSlash, hlast] at hslash

theorem KeepsDirectories.put {d : Disk} {p : Place} (hp : p ≠ [])
    (hfile : d.holdsDirectory p = false) (e : Entry) : KeepsDirectories d (d.put p e) := by
  refine ⟨⟨rfl, rfl⟩, ?_⟩
  intro q mode hq
  have hqp : q ≠ p := by
    rintro rfl
    simp [holdsDirectory_iff.mpr ⟨mode, hq⟩] at hfile
  rwa [get?_put hp, if_neg hqp]

/-- What is put where a path leads stands at its end. -/
theorem entry_put {d : Disk} {path : String} {p : Place} (hp : p ≠ [])
    (hfile : d.holdsDirectory p = false)
    (h : d.locate path = .ok (.found p) ∨ d.locate path = .ok (.vacant p false)) (e : Entry) :
    (d.put p e).entry path = .ok (p, e) := by
  have hput : (d.put p e).get? p = some e := by rw [get?_put hp, if_pos rfl]
  have hkeep := KeepsDirectories.put hp hfile e
  refine entry_eq_ok.mpr ⟨?_, hput⟩
  rcases h with hfound | hvacant
  · exact locate_found hkeep hfound (by simp [hput])
  · exact locate_vacant hkeep hvacant (by simp [hput]) nofun

/-- Writing at a path fails for every content, or puts every content at the same place, with the
same mode, where the path then leads. -/
theorem write_cases (d : Disk) (path : String) :
    (∃ f, ∀ content, d.write path content = .error f) ∨
    ∃ p mode, ∀ content, d.write path content = .ok (d.put p (.file mode content)) ∧
      (d.put p (.file mode content)).entry path = .ok (p, .file mode content) := by
  cases hspot : d.locateTrimmed path with
  | error f => exact .inl ⟨f, fun content => by rw [write, hspot]⟩
  | ok spot =>
    by_cases hslash : Path.endsInSlash path = true
    · exact .inl ⟨.isDirectory, fun content => by simp only [write, hspot, hslash, if_pos]⟩
    rw [Bool.not_eq_true] at hslash
    have hlocate : d.locate path = .ok spot := by rw [← locateTrimmed_eq_locate hslash, hspot]
    cases spot with
    | vacant p slash =>
      obtain ⟨start, hleads⟩ := leads_of_locate hlocate
      obtain ⟨hp, hfree⟩ := hleads.free_of_vacant
      obtain rfl := locate_vacant_slash hslash hlocate
      have hfile : d.holdsDirectory p = false := by simp [holdsDirectory, hfree]
      exact .inr ⟨p, fileMode, fun content =>
        ⟨by simp [write, hspot, hslash], entry_put hp hfile (.inr hlocate) _⟩⟩
    | found p =>
      cases hold : d.get? p with
      | none => exact .inl ⟨.isDirectory, fun content => by simp [write, hspot, hslash, hold]⟩
      | some old =>
        cases old with
        | directory mode =>
          exact .inl ⟨.isDirectory, fun content => by simp [write, hspot, hslash, hold]⟩
        | file mode before =>
          have hp : p ≠ [] := by
            rintro rfl
            simp [get?] at hold
          have hfile : d.holdsDirectory p = false := by
            simp [holdsDirectory, hold, Entry.isDirectory]
          cases hgrants : d.grants writeBit mode with
          | false =>
            exact .inl ⟨.denied, fun content => by simp [write, hspot, hslash, hold, hgrants]⟩
          | true =>
            exact .inr ⟨p, mode, fun content =>
              ⟨by simp [write, hspot, hslash, hold, hgrants],
                entry_put hp hfile (.inl hlocate) _⟩⟩

end Disk
end SourceAudit.Files
