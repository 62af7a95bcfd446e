import Mathlib.Algebra.Ring.Nat
import Mathlib.Data.List.Forall2
import SourceAudit.Audit.Metrics
import SourceAudit.Proofs.Text.LetterCase
import SourceAudit.Proofs.Text.Lines

/-!
Work markers. The scan steps over the rest of a marker that it has counted, and no other marker can
begin there, since none of the letters in it is the first one (`countMarkers_cons`). So the count
is that of all positions at which a marker begins (`length_markerPositions`); a text that is cut in
two loses at most the one marker across the cut (`countMarkers_append`), and none if a character that
no marker holds stands there (`countMarkers_separated`), as at the end of a line.
-/

namespace SourceAudit.Audit

open SourceAudit.Text (SameLetters toNat_toLower)

/-! ### Every position counts -/

/-- A marker begins a text whose next four characters are its letters, in either case. -/
theorem startsMarker_iff_take {text : List Char} :
    startsMarker text = true ↔ (text.take 4).map Char.toLower = ['t', 'o', 'd', 'o'] := by
  match text with
  | [] => simp [startsMarker]
  | [_] => simp [startsMarker]
  | [_, _] => simp [startsMarker]
  | [_, _, _] => simp [startsMarker]
  | _ :: _ :: _ :: _ :: _ => simp [startsMarker, and_assoc]

/-- Whether a marker begins at the front of a text, as a number. -/
def markerHere (text : List Char) : Nat := if startsMarker text then 1 else 0

theorem countMarkers_cons_of_ne {c : Char} (hc : c.toLower ≠ 't') (cs : List Char) :
    countMarkers (c :: cs) = countMarkers cs := by
  have hstarts : startsMarker (c :: cs) = false := by
    unfold startsMarker
    split
    · rename_i heq
      cases heq
      simp [hc]
    · rfl
  rw [countMarkers, countMarkersFrom, hstarts, if_neg Bool.false_ne_true, ← countMarkers]

/-- A marker has its first letter nowhere else, so a scan that looks at the rest of a marker finds
what a scan that steps over it finds. -/
theorem countMarkersFrom_step {c : Char} {cs : List Char} (h : startsMarker (c :: cs) = true) :
    countMarkersFrom 3 cs = countMarkers cs := by
  unfold startsMarker at h
  split at h
  · rename_i heq
    cases heq
    simp only [Bool.and_eq_true, decide_eq_true_eq] at h
    obtain ⟨⟨⟨-, hsecond⟩, hthird⟩, hfourth⟩ := h
    rw [countMarkers_cons_of_ne (by rw [hsecond]; decide),
      countMarkers_cons_of_ne (by rw [hthird]; decide),
      countMarkers_cons_of_ne (by rw [hfourth]; decide)]
    rfl
  · cases h

theorem countMarkers_cons (c : Char) (cs : List Char) :
    countMarkers (c :: cs) = countMarkers cs + markerHere (c :: cs) := by
  rw [countMarkers, countMarkersFrom, markerHere]
  split
  · rename_i hstarts
    rw [countMarkersFrom_step hstarts]
  · rfl

/-! ### Positions -/

/-- The letters of a marker, small and capital. -/
def markerLetters : List (Char × Char) := [('t', 'T'), ('o', 'O'), ('d', 'D'), ('o', 'O')]

/-- The next four characters from a position on are the letters of a marker, each in either case. -/
def MarkerAt (text : List Char) (i : Nat) : Prop :=
  List.Forall₂ (fun c letter => c = letter.1 ∨ c = letter.2) ((text.drop i).take 4) markerLetters

instance (text : List Char) (i : Nat) : Decidable (MarkerAt text i) :=
  inferInstanceAs (Decidable (List.Forall₂ _ _ _))

/-- The positions at which a marker begins. -/
def markerPositions (text : List Char) : List Nat :=
  (List.range text.length).filter fun i => MarkerAt text i

theorem mem_markerPositions {text : List Char} {i : Nat} :
    i ∈ markerPositions text ↔ MarkerAt text i := by
  rw [markerPositions, List.mem_filter, List.mem_range, decide_eq_true_eq, and_iff_right_iff_imp]
  intro hmarker
  by_contra hend
  have hlength := hmarker.length_eq
  rw [List.drop_eq_nil_of_le (Nat.le_of_not_lt hend)] at hlength
  cases hlength

theorem nodup_markerPositions (text : List Char) : (markerPositions text).Nodup :=
  List.nodup_range.filter _

theorem toLower_eq_letter : ∀ letter ∈ markerLetters, ∀ c : Char,
    c.toLower = letter.1 ↔ c = letter.1 ∨ c = letter.2 := by
  have hcodes : ∀ letter ∈ markerLetters,
      letter.2.toNat + 32 = letter.1.toNat ∧ 65 ≤ letter.2.toNat ∧ letter.2.toNat ≤ 90 := by decide
  intro letter hletter c
  obtain ⟨hshift, hlow, hhigh⟩ := hcodes letter hletter
  rw [← Char.toNat_inj, ← Char.toNat_inj, ← Char.toNat_inj, toNat_toLower]
  split <;> omega

theorem map_toLower_eq_iff {letters : List (Char × Char)}
    (hletters : ∀ letter ∈ letters, ∀ c : Char, c.toLower = letter.1 ↔ c = letter.1 ∨ c = letter.2)
    (cs : List Char) :
    cs.map Char.toLower = letters.map Prod.fst ↔
      List.Forall₂ (fun c letter => c = letter.1 ∨ c = letter.2) cs letters := by
  induction letters generalizing cs with
  | nil => simp
  | cons letter letters ih =>
    obtain ⟨hletter, hrest⟩ := List.forall_mem_cons.mp hletters
    cases cs with
    | nil => simp
    | cons c cs =>
      rw [List.map_cons, List.map_cons, List.cons.injEq, hletter c, ih hrest, List.forall₂_cons]

theorem startsMarker_iff_markerAt {text : List Char} :
    startsMarker text = true ↔ MarkerAt text 0 := by
  rw [startsMarker_iff_take, MarkerAt, List.drop_zero, ← map_toLower_eq_iff toLower_eq_letter]
  rfl

/-- The positions behind the first character are those of the rest. -/
theorem length_markerPositions_cons (c : Char) (cs : List Char) :
    (markerPositions (c :: cs)).length = (markerPositions cs).length + markerHere (c :: cs) := by
  have hrest : ((List.range cs.length).map Nat.succ).filter (fun i => MarkerAt (c :: cs) i) =
      (markerPositions cs).map Nat.succ := by
    rw [List.filter_map]
    rfl
  rw [markerPositions, List.length_cons, List.range_succ_eq_map, List.filter_cons, hrest, markerHere]
  by_cases hhere : MarkerAt (c :: cs) 0
  · simp [hhere, startsMarker_iff_markerAt.mpr hhere]
  · simp [hhere, mt startsMarker_iff_markerAt.mp hhere]

theorem length_markerPositions (text : List Char) :
    (markerPositions text).length = countMarkers text := by
  induction text with
  | nil => rfl
  | cons c cs ih => rw [length_markerPositions_cons, countMarkers_cons, ih]

/-! ### Letters of either case -/

theorem markerHere_congr {text text' : List Char} (h : SameLetters text text') :
    markerHere text = markerHere text' := by
  have hstarts : startsMarker text = startsMarker text' := by
    rw [Bool.eq_iff_iff, startsMarker_iff_take, startsMarker_iff_take, List.map_take, List.map_take, h]
  rw [markerHere, markerHere, hstarts]

theorem countMarkers_congr {text text' : List Char} (h : SameLetters text text') :
    countMarkers text = countMarkers text' := by
  induction text generalizing text' with
  | nil =>
    obtain rfl : text' = [] := List.map_eq_nil_iff.mp h.symm
    rfl
  | cons c cs ih =>
    obtain ⟨d, ds, rfl, -, hrest⟩ := List.map_eq_cons_iff.mp h.symm
    rw [countMarkers_cons, countMarkers_cons, markerHere_congr h, ih hrest.symm]

/-! ### Texts cut in two -/

theorem countMarkers_append_of_ne {cs : List Char} (hcs : ∀ c ∈ cs, c.toLower ≠ 't')
    (more : List Char) : countMarkers (cs ++ more) = countMarkers more := by
  induction cs with
  | nil => rfl
  | cons c cs ih =>
    obtain ⟨hc, hcs⟩ := List.forall_mem_cons.mp hcs
    rw [List.cons_append, countMarkers_cons_of_ne hc, ih hcs]

theorem markerHere_append_of_le {text : List Char} (h : 4 ≤ text.length) (more : List Char) :
    markerHere (text ++ more) = markerHere text := by
  have hstarts : startsMarker (text ++ more) = startsMarker text := by
    rw [Bool.eq_iff_iff, startsMarker_iff_take, startsMarker_iff_take,
      List.take_append_of_le_length h]
  rw [markerHere, markerHere, hstarts]

theorem markerHere_of_lt {text : List Char} (h : text.length < 4) : markerHere text = 0 := by
  rw [markerHere, if_neg]
  rw [startsMarker_iff_take]
  intro hletters
  have hlength := congrArg List.length hletters
  simp only [List.length_map, List.length_take, List.length_cons, List.length_nil] at hlength
  omega

/-- A marker that begins in the first part and ends in the second one leaves no room for another one
in the first part. -/
theorem countMarkers_across {c : Char} {cs more : List Char} (hshort : (c :: cs).length < 4)
    (h : startsMarker (c :: cs ++ more) = true) :
    countMarkers cs = 0 ∧ countMarkers (cs ++ more) = countMarkers more := by
  have hcs : ∀ d ∈ cs, d.toLower ≠ 't' := by
    rw [startsMarker_iff_take, List.cons_append, List.take_succ_cons, List.map_cons,
      List.cons.injEq] at h
    intro d hd
    have hmem : d ∈ (cs ++ more).take 3 := by
      rw [List.take_append]
      refine List.mem_append_left _ ?_
      rwa [List.take_of_length_le (Nat.le_of_lt (Nat.lt_of_succ_lt_succ hshort))]
    have hletter := List.mem_map_of_mem (f := Char.toLower) hmem
    rw [h.2] at hletter
    intro ht
    rw [ht] at hletter
    exact absurd hletter (by decide)
  have hnone := countMarkers_append_of_ne hcs []
  rw [List.append_nil] at hnone
  exact ⟨hnone, countMarkers_append_of_ne hcs more⟩

theorem countMarkers_append (text more : List Char) :
    ∃ k ≤ 1, countMarkers (text ++ more) = countMarkers text + countMarkers more + k := by
  induction text with
  | nil => exact ⟨0, Nat.zero_le _, by simp [countMarkers, countMarkersFrom]⟩
  | cons c cs ih =>
    obtain ⟨k, hk, ih⟩ := ih
    have hcons := countMarkers_cons c cs
    have happend : countMarkers (c :: cs ++ more) = _ := countMarkers_cons c (cs ++ more)
    rw [← List.cons_append] at happend
    by_cases hlong : 4 ≤ (c :: cs).length
    · rw [markerHere_append_of_le hlong] at happend
      exact ⟨k, hk, by omega⟩
    · rw [markerHere_of_lt (Nat.lt_of_not_le hlong)] at hcons
      by_cases hacross : startsMarker (c :: cs ++ more) = true
      · obtain ⟨hnone, hmore⟩ := countMarkers_across (Nat.lt_of_not_le hlong) hacross
        rw [markerHere, if_pos hacross] at happend
        exact ⟨1, Nat.le_refl _, by omega⟩
      · rw [markerHere, if_neg hacross] at happend
        exact ⟨k, hk, by omega⟩

theorem markerHere_separated {c : Char} (hc : c.toLower ∉ ['t', 'o', 'd', 'o'])
    (text more : List Char) : markerHere (text ++ c :: more) = markerHere text := by
  by_cases hlong : 4 ≤ text.length
  · exact markerHere_append_of_le hlong _
  · rw [markerHere_of_lt (Nat.lt_of_not_le hlong), markerHere, if_neg]
    rw [startsMarker_iff_take]
    intro hletters
    have hmem : c ∈ (text ++ c :: more).take 4 := by
      obtain ⟨k, hk⟩ := Nat.exists_eq_add_of_lt (Nat.lt_of_not_le hlong)
      rw [hk, Nat.add_assoc, List.take_length_add_append, List.take_succ_cons]
      simp
    have hletter := List.mem_map_of_mem (f := Char.toLower) hmem
    rw [hletters] at hletter
    exact hc hletter

/-- A character that no marker holds separates the markers on its two sides. -/
theorem countMarkers_separated {c : Char} (hc : c.toLower ∉ ['t', 'o', 'd', 'o'])
    (text more : List Char) :
    countMarkers (text ++ c :: more) = countMarkers text + countMarkers more := by
  induction text with
  | nil =>
    have hfirst : c.toLower ≠ 't' := fun h => hc (by simp [h])
    rw [List.nil_append, countMarkers_cons_of_ne hfirst]
    exact (Nat.zero_add _).symm
  | cons d ds ih =>
    rw [List.cons_append, countMarkers_cons, countMarkers_cons, ih, ← List.cons_append,
      markerHere_separated hc]
    omega

theorem countMarkers_dropReturn (line : List Char) :
    countMarkers (Text.dropReturn line) = countMarkers line := by
  by_cases hreturn : line.getLast? = some '\r'
  · obtain ⟨front, rfl⟩ := List.getLast?_eq_some_iff.mp hreturn
    rw [Text.dropReturn_concat, countMarkers_separated (by decide)]
    rfl
  · rw [Text.dropReturn_eq_self hreturn]

theorem countMarkers_eq_sum (text : List Char) :
    countMarkers text = ((Text.lines text).map countMarkers).sum := by
  induction text using Text.lineInduction with
  | nil => rfl
  | last body hbody hne =>
    rw [Text.lines_body hbody hne, List.map_singleton, List.sum_singleton]
  | feed body rest hbody ih =>
    rw [Text.lines_body_feed hbody, List.map_cons, List.sum_cons, countMarkers_dropReturn,
      countMarkers_separated (by decide), ih]

/-- Markers are counted once each: the count is the number of all positions at which the next four
characters are the letters of a marker, in either case. So it does not depend on the case of letters;
two texts put together have their markers and at most one more, and just their markers if a line ends
between them; and the count in the metrics is the sum over the lines of the text. -/
theorem markers_counted_once (text : List Char) :
    ((∀ i, i ∈ markerPositions text ↔ MarkerAt text i) ∧ (markerPositions text).Nodup ∧
      countMarkers text = (markerPositions text).length) ∧
    (∀ text', SameLetters text text' → countMarkers text' = countMarkers text) ∧
    (∀ more, ∃ k ≤ 1, countMarkers (text ++ more) = countMarkers text + countMarkers more + k) ∧
    (∀ more, countMarkers (text ++ '\n' :: more) = countMarkers text + countMarkers more) ∧
    ∀ issues, (Metrics.collect text issues).todoCount =
      ((Text.lines text).map countMarkers).sum := by
  refine ⟨⟨fun i => mem_markerPositions, nodup_markerPositions text,
    (length_markerPositions text).symm⟩, ?_, countMarkers_append text, ?_, ?_⟩
  · intro text' h
    exact (countMarkers_congr h).symm
  · exact countMarkers_separated (by decide) text
  · intro issues
    exact countMarkers_eq_sum text

/-- A text in which a marker stands behind the beginning of one, and two next to each other. -/
def crowdedText : List Char := "toTodo\r\nTODOtodo".toList

theorem crowdedText_counted :
    SameLetters crowdedText "TOTODO\r\nTODOTODO".toList ∧
      countMarkers "TOTODO\r\nTODOTODO".toList = countMarkers crowdedText ∧
      countMarkers crowdedText = 3 ∧ markerPositions crowdedText = [2, 8, 12] := by
  have hsame : SameLetters crowdedText "TOTODO\r\nTODOTODO".toList := by decide
  obtain ⟨⟨-, -, hcount⟩, hcase, -⟩ := markers_counted_once crowdedText
  have hpositions : markerPositions crowdedText = [2, 8, 12] := by decide
  exact ⟨hsame, hcase _ hsame, by rw [hcount, hpositions]; rfl, hpositions⟩

end SourceAudit.Audit
