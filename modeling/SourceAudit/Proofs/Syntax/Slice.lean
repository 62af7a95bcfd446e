import Mathlib.Data.List.DropRight
import SourceAudit.Syntax.Docstring

/-!
Texts in bytes. A slice whose ends lie between characters holds the characters between them
(`sliceFrom_between`), and a place in a text tells what stands before it: its byte is the size of
all that, its column the size of the part on its own line, and its row the number of line feeds
(`byte_placeAfter`, `column_placeAfter`, `row_placeAfter`).
-/

namespace SourceAudit.Syntax

open SourceAudit.Parsing (Point Source)

/-! ### Sizes and slices -/

/-- Number of bytes of a text. -/
def byteSize (cs : List Char) : Nat := (cs.map Char.utf8Size).foldl (· + ·) 0

@[simp] theorem byteSize_nil : byteSize [] = 0 := rfl

@[simp] theorem byteSize_cons (c : Char) (cs : List Char) :
    byteSize (c :: cs) = c.utf8Size + byteSize cs := by
  rw [byteSize, byteSize, ← List.sum_eq_foldl, ← List.sum_eq_foldl, List.map_cons, List.sum_cons]

@[simp] theorem byteSize_append (as bs : List Char) :
    byteSize (as ++ bs) = byteSize as + byteSize bs := by
  induction as with
  | nil => simp
  | cons c as ih => rw [List.cons_append, byteSize_cons, byteSize_cons, ih, Nat.add_assoc]

theorem byteSize_eq_zero {cs : List Char} : byteSize cs = 0 ↔ cs = [] := by
  cases cs with
  | nil => simp
  | cons c cs =>
    have hpos := c.utf8Size_pos
    simp only [byteSize_cons, reduceCtorEq, iff_false]
    omega

/-- A byte offset at which a character of the text begins, or at which the text ends. -/
def OnBoundary (cs : List Char) (n : Nat) : Prop :=
  ∃ before after, cs = before ++ after ∧ byteSize before = n

/-- The slice that ends with `middle`, begun at its first character. -/
theorem sliceFrom_front {at_ start : Nat} (h : start ≤ at_) (middle after : List Char) :
    sliceFrom at_ start (at_ + byteSize middle) (middle ++ after) = middle := by
  induction middle generalizing at_ with
  | nil =>
    cases after with
    | nil => rfl
    | cons c cs => simp [sliceFrom]
  | cons c middle ih =>
    have hpos := c.utf8Size_pos
    have hopen : ¬ at_ + byteSize (c :: middle) ≤ at_ := by
      rw [byteSize_cons]
      omega
    have hrest := ih (show start ≤ at_ + c.utf8Size by omega)
    rw [List.cons_append, sliceFrom, if_neg hopen, if_pos h, byteSize_cons, ← Nat.add_assoc, hrest]

/-- The slice between two places between characters. -/
theorem sliceFrom_between (at_ : Nat) (before middle after : List Char) :
    sliceFrom at_ (at_ + byteSize before) (at_ + byteSize before + byteSize middle)
      (before ++ (middle ++ after)) = middle := by
  induction before generalizing at_ with
  | nil => exact sliceFrom_front (Nat.le_refl _) middle after
  | cons c before ih =>
    have hpos := c.utf8Size_pos
    have hopen : ¬ at_ + byteSize (c :: before) + byteSize middle ≤ at_ := by
      rw [byteSize_cons]
      omega
    have hlater : ¬ at_ + byteSize (c :: before) ≤ at_ := by
      rw [byteSize_cons]
      omega
    rw [List.cons_append, sliceFrom, if_neg hopen, if_neg hlater, byteSize_cons, ← Nat.add_assoc]
    exact ih (at_ + c.utf8Size)

/-! ### Places -/

/-- The place after the given text. -/
def placeAfter (cs : List Char) : Point := cs.foldl Source.after ⟨0, 0, 0⟩

/-- The part of a text after its last line feed. -/
def lastLine (cs : List Char) : List Char := cs.rtakeWhile (· ≠ '\n')

theorem lastLine_concat (cs : List Char) (c : Char) :
    lastLine (cs ++ [c]) = if c = '\n' then [] else lastLine cs ++ [c] := by
  unfold lastLine
  split
  · rename_i h
    rw [List.rtakeWhile_concat_neg (h := by simp [h])]
  · rename_i h
    rw [List.rtakeWhile_concat_pos (h := by simp [h])]

theorem placeAfter_concat (cs : List Char) (c : Char) :
    placeAfter (cs ++ [c]) = Source.after (placeAfter cs) c := by
  simp [placeAfter]

theorem byte_placeAfter (cs : List Char) : (placeAfter cs).byte = byteSize cs := by
  induction cs using List.reverseRecOn with
  | nil => rfl
  | append_singleton cs c ih =>
    have hfeed : '\n'.utf8Size = 1 := by decide
    rw [placeAfter_concat, byteSize_append, ← ih, Source.after]
    split
    · rename_i h
      simp [beq_iff_eq.mp h, hfeed]
    · simp

theorem column_placeAfter (cs : List Char) :
    (placeAfter cs).column = byteSize (lastLine cs) := by
  induction cs using List.reverseRecOn with
  | nil => rfl
  | append_singleton cs c ih =>
    rw [placeAfter_concat, lastLine_concat, Source.after]
    split
    · rename_i h
      simp [beq_iff_eq.mp h]
    · rename_i h
      rw [if_neg (by simpa using h), byteSize_append, ← ih]
      simp

theorem row_placeAfter (cs : List Char) : (placeAfter cs).row = cs.count '\n' := by
  induction cs using List.reverseRecOn with
  | nil => rfl
  | append_singleton cs c ih =>
    rw [placeAfter_concat, List.count_append, ← ih, Source.after]
    split
    · rename_i h
      simp [beq_iff_eq.mp h]
    · rename_i h
      simp [List.count_singleton, h]

/-- A place in the text. -/
def IsPlace (text : List Char) (p : Point) : Prop :=
  ∃ before after, text = before ++ after ∧ p = placeAfter before

theorem isPlace_iff {text : List Char} {p : Point} :
    IsPlace text p ↔ ∃ i ≤ text.length, p = placeAfter (text.take i) := by
  constructor
  · rintro ⟨before, after, rfl, rfl⟩
    exact ⟨before.length, by simp, by simp⟩
  · rintro ⟨i, -, rfl⟩
    exact ⟨text.take i, text.drop i, (List.take_append_drop i text).symm, rfl⟩

instance (text : List Char) (p : Point) : Decidable (IsPlace text p) :=
  decidable_of_iff _ isPlace_iff.symm

end SourceAudit.Syntax
