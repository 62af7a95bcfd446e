import Mathlib.Data.List.DropRight
import SourceAudit.Proofs.Text.Run
import SourceAudit.Text.Blank

/-!
Trimming. White space in front and behind is left out (`trimChars_between`, `trimChars_blanks`), and
nothing else is (`exists_blanks_around`).
-/

namespace SourceAudit.Text

/-- The visible characters of ASCII are no white space. -/
theorem isBlank_of_visible {c : Char} (hlow : 0x20 < c.toNat) (hhigh : c.toNat < 0x7F) :
    isBlank c = false := by
  have hall : ∀ n < 0x7F, 0x20 < n → (boundariesUpTo blanks n 0 blanks.size % 2 == 1) = false := by
    decide +kernel
  exact hall c.toNat hhigh hlow

theorem trimChars_eq (cs : List Char) :
    trimChars cs = (cs.dropWhile isBlank).rdropWhile isBlank := rfl

theorem trimChars_blanks {bs : List Char} (hb : ∀ c ∈ bs, isBlank c = true) (cs : List Char) :
    trimChars (bs ++ cs) = trimChars cs := by
  rw [trimChars, List.dropWhile_append_of_pos hb, ← trimChars]

/-- What stands between white space and has none at its ends is what is left. -/
theorem trimChars_between {before cs after : List Char} (hne : cs ≠ [])
    (hfirst : ∀ c ∈ cs.head?, isBlank c = false) (hlast : ∀ c ∈ cs.getLast?, isBlank c = false)
    (hbefore : ∀ c ∈ before, isBlank c = true) (hafter : ∀ c ∈ after, isBlank c = true) :
    trimChars (before ++ (cs ++ after)) = cs := by
  have hhead : ∀ c ∈ (cs ++ after).head?, isBlank c = false := by
    rwa [List.head?_append_of_ne_nil _ hne]
  have hend : ∀ c ∈ cs.reverse.head?, isBlank c = false := by
    rwa [List.head?_reverse]
  have hblank : ∀ c ∈ after.reverse, isBlank c = true := by simpa using hafter
  rw [trimChars, dropWhile_run hbefore hhead, List.reverse_append, dropWhile_run hblank hend,
    List.reverse_reverse]

/-- Only white space is lost, at either end. -/
theorem exists_blanks_around (cs : List Char) :
    ∃ before after, cs = before ++ (trimChars cs ++ after) ∧
      (∀ c ∈ before, isBlank c = true) ∧ ∀ c ∈ after, isBlank c = true := by
  refine ⟨cs.takeWhile isBlank, (cs.dropWhile isBlank).rtakeWhile isBlank, ?_, ?_, ?_⟩
  · rw [trimChars_eq, List.rdropWhile_append_rtakeWhile, List.takeWhile_append_dropWhile]
  · exact fun c hc => List.mem_takeWhile_imp hc
  · exact fun c hc => List.mem_rtakeWhile_imp hc

theorem trimChars_eq_nil {cs : List Char} :
    trimChars cs = [] ↔ ∀ c ∈ cs, isBlank c = true := by
  constructor
  · intro h c hc
    obtain ⟨before, after, hsplit, hbefore, hafter⟩ := exists_blanks_around cs
    rw [h, List.nil_append] at hsplit
    rw [hsplit, List.mem_append] at hc
    rcases hc with hc | hc
    · exact hbefore c hc
    · exact hafter c hc
  · intro h
    rw [← List.append_nil cs, trimChars_blanks h]
    rfl

theorem isBlank_first {cs : List Char} {c : Char} (h : c ∈ (trimChars cs).head?) :
    isBlank c = false := by
  have hnot := List.head?_dropWhile_not isBlank cs
  have hne : trimChars cs ≠ [] := by
    intro hnil
    rw [hnil] at h
    cases h
  obtain ⟨rest, hrest⟩ : trimChars cs <+: cs.dropWhile isBlank := List.rdropWhile_prefix _ _
  rw [← hrest, List.head?_append_of_ne_nil _ hne, Option.mem_def.mp h] at hnot
  exact hnot

theorem isBlank_last {cs : List Char} {c : Char} (h : c ∈ (trimChars cs).getLast?) :
    isBlank c = false := by
  have hnot := List.head?_dropWhile_not isBlank (cs.dropWhile isBlank).reverse
  rw [trimChars, List.getLast?_reverse] at h
  rw [Option.mem_def.mp h] at hnot
  exact hnot

/-- Of two texts, all that lies between what is left of each stays. -/
theorem trimChars_append {as bs : List Char} (c : Char) (has : trimChars as ≠ [])
    (hbs : trimChars bs ≠ []) :
    ∃ before after, (∀ d ∈ before, isBlank d = true) ∧
      trimChars (as ++ c :: bs) = trimChars as ++ (before ++ c :: (after ++ trimChars bs)) := by
  obtain ⟨first, before, hsplit, hfirst, hbefore⟩ := exists_blanks_around as
  obtain ⟨after, last, hsplit', -, hlast⟩ := exists_blanks_around bs
  refine ⟨before, after, hbefore, ?_⟩
  have hall : as ++ c :: bs =
      first ++ ((trimChars as ++ (before ++ c :: (after ++ trimChars bs))) ++ last) := by
    nth_rewrite 1 [hsplit, hsplit']
    simp
  rw [hall]
  apply trimChars_between (by simp [has]) _ _ hfirst hlast
  · intro d hd
    rw [List.head?_append_of_ne_nil _ has] at hd
    exact isBlank_first hd
  · intro d hd
    have hend : (trimChars as ++ (before ++ c :: (after ++ trimChars bs))).getLast? =
        (trimChars bs).getLast? := by
      rw [← List.cons_append, ← List.append_assoc, ← List.append_assoc,
        List.getLast?_append_of_ne_nil _ hbs]
    rw [hend] at hd
    exact isBlank_last hd

/-- A character that is no white space stays. -/
theorem mem_trimChars {cs : List Char} {c : Char} (hc : c ∈ cs) (hblank : isBlank c = false) :
    c ∈ trimChars cs := by
  obtain ⟨before, after, hsplit, hbefore, hafter⟩ := exists_blanks_around cs
  rw [hsplit, List.mem_append, List.mem_append] at hc
  rcases hc with hc | hc | hc
  · exact absurd (hbefore c hc) (by simp [hblank])
  · exact hc
  · exact absurd (hafter c hc) (by simp [hblank])

end SourceAudit.Text
