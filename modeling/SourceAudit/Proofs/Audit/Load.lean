import SourceAudit.Audit.Load
import SourceAudit.Proofs.Files.Read
import SourceAudit.Proofs.Files.Write
import SourceAudit.Proofs.Text.Newline

/-!
Sources with other line endings. All ways to write the line ends of a text, as long as no two of them
run together, give the same source and the same report (`line_endings_immaterial`).
-/

namespace SourceAudit.Audit

open SourceAudit.Files (Disk)
open SourceAudit.Text

/-- The content of a file with the text, its line feeds written as the given endings. -/
def encoded (endings : Nat → Ending) (text : String) : ByteArray :=
  (String.ofList (written endings text.toList)).toUTF8

theorem load_of_holdsText {d : Disk} {path text : String} (h : d.HoldsText path text)
    (hread : d.Readable path) :
    SourceUnit.load d path = .ok ⟨path, String.ofList (normalizeNewlines text.toList)⟩ := by
  have htext := Disk.readText_eq_ok.mpr ⟨h, hread⟩
  obtain ⟨p, mode, hentry⟩ := h
  simp [SourceUnit.load, Disk.has_of_entry hentry, htext]

theorem load_of_not_readable {d : Disk} {path text : String} (h : d.HoldsText path text)
    (hread : ¬ d.Readable path) : SourceUnit.load d path = .error (.unreadable path .denied) := by
  obtain ⟨p, mode, hentry⟩ := h
  simp [SourceUnit.load, Disk.has_of_entry hentry, Disk.readText_of_not_readable hread]

/-- A source is read as the text that it was written from. -/
theorem load_encoded {endings : Nat → Ending} {text : String} (hreturn : '\r' ∉ text.toList)
    (hapart : KeepsApart endings text.toList) {d : Disk} {path : String}
    (h : d.HoldsText path (String.ofList (written endings text.toList)))
    (hread : d.Readable path) : SourceUnit.load d path = .ok ⟨path, text⟩ := by
  rw [load_of_holdsText h hread, String.toList_ofList, normalizeNewlines_written hreturn hapart,
    String.ofList_toList]

/-- Line ends are read as one pass over the text would read them that makes a line feed of every
pair of a return and a line feed and of every other return. No return is left, a second time nothing
changes, and a text can be read piece by piece exactly where no pair is cut. So a text without
returns may be written with any endings, all alike or mixed, if no single return directly comes
before a single line feed: whether the file can be written, and whether it can be read, does not
depend on the endings, and if it can, the source is the same, and without a linter the report is, the
time apart. -/
theorem line_endings_immaterial :
    (∀ cs, normalizeNewlines cs = onePass cs ∧ '\r' ∉ normalizeNewlines cs ∧
      normalizeNewlines (normalizeNewlines cs) = normalizeNewlines cs) ∧
    (∀ as bs, normalizeNewlines (as ++ bs) = normalizeNewlines as ++ normalizeNewlines bs ↔
      ¬ (as.getLast? = some '\r' ∧ bs.head? = some '\n')) ∧
    ∀ text : String, '\r' ∉ text.toList →
      (∀ e, KeepsApart (fun _ => e) text.toList) ∧ encoded (fun _ => .feed) text = text.toUTF8 ∧
      ∀ (d : Disk) (path : String),
        (∃ f, ∀ endings, d.write path (encoded endings text) = .error f) ∨
        (∀ endings, ∃ d', d.write path (encoded endings text) = .ok d' ∧
          SourceUnit.load d' path = .error (.unreadable path .denied) ∧
          ∀ threshold sector now, analyzeFile d' threshold none now sector path =
            .error (.unreadable path .denied)) ∨
        ∀ endings, KeepsApart endings text.toList →
          ∃ d', d.write path (encoded endings text) = .ok d' ∧
            SourceUnit.load d' path = .ok ⟨path, text⟩ ∧
            ∀ threshold sector now, analyzeFile d' threshold none now sector path =
              .ok ((analyze threshold none sector ⟨path, text⟩).stamped now) := by
  refine ⟨?_, normalizeNewlines_append, ?_⟩
  · intro cs
    exact ⟨normalizeNewlines_eq_onePass cs, return_not_mem cs, normalizeNewlines_twice cs⟩
  · intro text hreturn
    refine ⟨fun e => keepsApart_const e _, by rw [encoded, written_feed, String.ofList_toList], ?_⟩
    intro d path
    rcases d.write_cases path with ⟨f, hfails⟩ | ⟨p, mode, hwrites⟩
    · exact .inl ⟨f, fun endings => hfails _⟩
    -- the mode of the file, and so whether it can be read, does not depend on the endings
    have hholds (endings : Nat → Ending) :
        (d.put p (.file mode (encoded endings text))).HoldsText path
          (String.ofList (written endings text.toList)) :=
      ⟨p, mode, (hwrites _).2⟩
    have hreadable (endings : Nat → Ending) :
        (d.put p (.file mode (encoded endings text))).Readable path ↔
          d.grants Files.readBit mode = true :=
      Disk.readable_iff_of_entry (hwrites _).2
    right
    cases hgrants : d.grants Files.readBit mode with
    | false =>
      left
      intro endings
      have hload := load_of_not_readable (hholds endings)
        (by rw [hreadable, hgrants]; exact Bool.false_ne_true)
      refine ⟨_, (hwrites _).1, hload, fun threshold sector now => ?_⟩
      simp only [analyzeFile, hload]
    | true =>
      right
      intro endings hapart
      have hload := load_encoded hreturn hapart (hholds endings)
        ((hreadable endings).mpr hgrants)
      refine ⟨_, (hwrites _).1, hload, fun threshold sector now => ?_⟩
      simp only [analyzeFile, hload]

/-- A single return, a pair and a line feed. -/
def mixedEndings : Nat → Ending
  | 0 => .single
  | 1 => .pair
  | _ => .feed

theorem mixedEndings_load :
    '\r' ∉ "a\n\nb\n".toList ∧ written mixedEndings "a\n\nb\n".toList = "a\r\r\nb\n".toList ∧
      ∃ d', (Disk.emptyDirectory "work").write "a.py" (encoded mixedEndings "a\n\nb\n") = .ok d' ∧
        SourceUnit.load d' "a.py" = .ok ⟨"a.py", "a\n\nb\n"⟩ := by
  have hreturn : '\r' ∉ "a\n\nb\n".toList := by decide
  have hapart : KeepsApart mixedEndings "a\n\nb\n".toList := by
    rintro before after - ⟨hsingle, hfeed⟩
    match hcount : before.count '\n' with
    | 0 => simp [hcount, mixedEndings] at hfeed
    | 1 => simp [hcount, mixedEndings] at hsingle
    | n + 2 => simp [hcount, mixedEndings] at hsingle
  obtain ⟨-, -, hwritten⟩ := line_endings_immaterial
  obtain ⟨-, -, hdisk⟩ := hwritten _ hreturn
  refine ⟨hreturn, by decide, ?_⟩
  rcases hdisk (Disk.emptyDirectory "work") "a.py" with ⟨f, hfails⟩ | hdenied | hloads
  · cases hfails mixedEndings
  · obtain ⟨d', hwrite, hload, -⟩ := hdenied mixedEndings
    cases hwrite
    cases hload
  · obtain ⟨d', hwrite, hload, -⟩ := hloads mixedEndings hapart
    exact ⟨d', hwrite, hload⟩

end SourceAudit.Audit
