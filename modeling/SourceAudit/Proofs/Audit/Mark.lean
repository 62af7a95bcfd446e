import SourceAudit.Audit.Analysis
import SourceAudit.Proofs.Audit.Marker
import SourceAudit.Proofs.Audit.Sector

/-!
A byte order mark in front of a source. Only the parser takes it away; the classifier, the count of
markers and the count of lines see it. None of them is disturbed: no keyword and no work marker has
the mark in it, and in front of a text it makes no line of its own. So the report is that on the
text without the mark (`analyze_mark`).
-/

namespace SourceAudit.Audit

open SourceAudit.Syntax (withoutMark)

/-- U+FEFF, which may stand in front of a text. -/
def byteOrderMark : Char := '\ufeff'

theorem withoutMark_mark (cs : List Char) : withoutMark (byteOrderMark :: cs) = cs := rfl

theorem withoutMark_eq_self {cs : List Char} (h : cs.head? ≠ some byteOrderMark) :
    withoutMark cs = cs := by
  unfold withoutMark
  split
  · exact absurd rfl h
  · rfl

/-! ### Keywords -/

theorem classify_mark (cs : List Char) : classify (byteOrderMark :: cs) = classify cs := by
  have hmark : 128 ≤ byteOrderMark.toNat := by decide
  have hempty : classify [] = .unknown := by decide +kernel
  have hsides := rank_classify_foreign hmark [] cs
  rw [List.nil_append, hempty, Nat.min_eq_right (rank_le_unknown _)] at hsides
  exact rank_injective hsides

/-! ### Markers -/

theorem countMarkers_mark (cs : List Char) :
    countMarkers (byteOrderMark :: cs) = countMarkers cs :=
  countMarkers_cons_of_ne (by decide) cs

/-! ### The report -/

theorem parse_mark {text : String} (h : text.toList.head? ≠ some byteOrderMark) :
    Syntax.parse (String.singleton byteOrderMark ++ text) = Syntax.parse text := by
  have hmark : (String.singleton byteOrderMark ++ text).toList = byteOrderMark :: text.toList := by
    simp
  simp only [Syntax.parse, hmark, withoutMark_mark, withoutMark_eq_self h]

theorem inspect_mark (threshold : Nat) (file : String) (sector : Sector) {cs : List Char}
    (hne : cs ≠ []) (tree : Syntax.Node) :
    inspect threshold file sector (byteOrderMark :: cs) tree =
      inspect threshold file sector cs tree := by
  have hmarkers : markerIssues (byteOrderMark :: cs) = markerIssues cs := by
    simp only [markerIssues, countMarkers_mark]
  have hissues :
      detectAll threshold tree (byteOrderMark :: cs) = detectAll threshold tree cs := by
    simp only [detectAll, detectors, List.flatMap_cons, List.flatMap_nil, hmarkers]
  have hlines := Text.length_lines_cons (c := byteOrderMark) (by decide) hne
  simp only [inspect, hissues, Metrics.collect, hlines, countMarkers_mark]

/-- A byte order mark in front of a text that is not empty and has none itself does not show in the
report, whatever the path, the sector, the threshold and the linter are. -/
theorem analyze_mark (threshold : Nat) (lint : Option Lint) (sector : Option Sector)
    (path : String) {text : String} (hne : text ≠ "")
    (hmark : text.toList.head? ≠ some byteOrderMark) :
    analyze threshold lint sector ⟨path, String.singleton byteOrderMark ++ text⟩ =
      analyze threshold lint sector ⟨path, text⟩ := by
  have hlist : (String.singleton byteOrderMark ++ text).toList = byteOrderMark :: text.toList := by
    simp
  have hcons : text.toList ≠ [] := by simpa using hne
  simp only [analyze, parse_mark hmark, hlist, classify_mark, inspect_mark _ _ _ hcons]

/-- A text with keywords and a work marker. -/
def gardenText : String := "# TODO: water the trees\n"

theorem gardenText_marked :
    gardenText ≠ "" ∧ gardenText.toList.head? ≠ some byteOrderMark ∧
      analyze 50 (some fun _ => none) none
          ⟨"garden.py", String.singleton byteOrderMark ++ gardenText⟩ =
        analyze 50 (some fun _ => none) none ⟨"garden.py", gardenText⟩ := by
  have hne : gardenText ≠ "" := by decide
  have hmark : gardenText.toList.head? ≠ some byteOrderMark := by decide
  exact ⟨hne, hmark, analyze_mark 50 (some fun _ => none) none "garden.py" hne hmark⟩

-- In front of nothing the mark is a line.
example : (Text.lines [byteOrderMark]).length = 1 ∧ (Text.lines []).length = 0 := by decide

end SourceAudit.Audit
