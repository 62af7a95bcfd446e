import Mathlib.Data.List.Chain
import SourceAudit.Text.Blank
import SourceAudit.Text.Digit

/-!
Character classes. The search by halving finds how many boundaries do not exceed a code point
(`boundariesUpTo_between`), so a class has the characters of its ranges and no others
(`inRanges_iff`). No white space is a digit (`isDecimalDigit_of_isBlank`).
-/

namespace SourceAudit.Text

/-- The boundaries increase and come in pairs. -/
structure IsRanges (bounds : Array Nat) : Prop where
  increasing : ∀ i j, i < j → j < bounds.size → bounds.getD i 0 < bounds.getD j 0
  paired : bounds.size % 2 = 0

theorem isRanges_of_isChain {bounds : Array Nat} (hchain : bounds.toList.IsChain (· < ·))
    (hpaired : bounds.size % 2 = 0) : IsRanges bounds := by
  refine ⟨?_, hpaired⟩
  intro i j hij hj
  have hpairwise := List.pairwise_iff_getElem.mp hchain.pairwise i j (by simp; omega) (by simpa) hij
  simpa [Array.getD, hj, Nat.lt_trans hij hj] using hpairwise

/-- All boundaries before `lo` are at most `n`, and all from `hi` on exceed it. -/
structure Between (bounds : Array Nat) (n lo hi : Nat) : Prop where
  le : lo ≤ hi
  le_size : hi ≤ bounds.size
  before : ∀ i < lo, bounds.getD i 0 ≤ n
  behind : ∀ i, hi ≤ i → i < bounds.size → n < bounds.getD i 0

/-- Halving keeps the boundaries on their sides, until nothing is left between them. -/
theorem boundariesUpTo_between {bounds : Array Nat} (hranges : IsRanges bounds) {n lo hi : Nat}
    (h : Between bounds n lo hi) :
    Between bounds n (boundariesUpTo bounds n lo hi) (boundariesUpTo bounds n lo hi) := by
  obtain ⟨hle, hsize, hbefore, hbehind⟩ := h
  fun_induction boundariesUpTo bounds n lo hi with
  | case1 lo hi hlt mid hmid ih =>
    have hmiddle : mid < hi := by omega
    refine ih hmiddle hsize ?_ hbehind
    intro i hi'
    rcases Nat.lt_or_eq_of_le (Nat.le_of_lt_succ hi') with hlow | rfl
    · exact (hranges.increasing i mid hlow (by omega)).le.trans hmid
    · exact hmid
  | case2 lo hi hlt mid hmid ih =>
    refine ih (by omega) (by omega) hbefore ?_
    intro i hi' hi''
    rcases Nat.lt_or_eq_of_le hi' with hhigh | rfl
    · exact (Nat.lt_of_not_le hmid).trans (hranges.increasing mid i hhigh hi'')
    · exact Nat.lt_of_not_le hmid
  | case3 lo hi hge =>
    obtain rfl : lo = hi := by omega
    exact ⟨Nat.le_refl _, hsize, hbefore, hbehind⟩

/-- A class has the characters of its ranges. -/
theorem inRanges_iff {bounds : Array Nat} (hranges : IsRanges bounds) {c : Char} :
    inRanges bounds c = true ↔
      ∃ i, 2 * i + 1 < bounds.size ∧ bounds.getD (2 * i) 0 ≤ c.toNat ∧
        c.toNat < bounds.getD (2 * i + 1) 0 := by
  have hall : Between bounds c.toNat 0 bounds.size :=
    ⟨Nat.zero_le _, Nat.le_refl _, nofun, fun i hi hlt => absurd hlt (Nat.not_lt_of_le hi)⟩
  obtain ⟨-, hsize, hbefore, hbehind⟩ := boundariesUpTo_between hranges hall
  have hpaired := hranges.paired
  rw [inRanges, beq_iff_eq]
  generalize boundariesUpTo bounds c.toNat 0 bounds.size = k at hsize hbefore hbehind
  constructor
  · intro hodd
    have hk : 2 * (k / 2) + 1 = k := by omega
    refine ⟨k / 2, by omega, hbefore _ (by omega), ?_⟩
    rw [hk]
    exact hbehind k (Nat.le_refl k) (by omega)
  · rintro ⟨i, hi, hlow, hhigh⟩
    have hge : 2 * i < k := by
      by_contra hle
      have := hbehind (2 * i) (by omega) (by omega)
      omega
    have hle : k ≤ 2 * i + 1 := by
      by_contra hgt
      have := hbefore (2 * i + 1) (by omega)
      omega
    omega

/-- Classes whose ranges do not meet have no character in common. -/
theorem inRanges_eq_false {as bs : Array Nat} (has : IsRanges as) (hbs : IsRanges bs)
    (hapart : ∀ i < as.size / 2, ∀ j < bs.size / 2,
      as.getD (2 * i + 1) 0 ≤ bs.getD (2 * j) 0 ∨ bs.getD (2 * j + 1) 0 ≤ as.getD (2 * i) 0)
    {c : Char} (hc : inRanges as c = true) : inRanges bs c = false := by
  rw [← Bool.not_eq_true]
  intro hother
  obtain ⟨i, hi, hlow, hhigh⟩ := (inRanges_iff has).mp hc
  obtain ⟨j, hj, hlow', hhigh'⟩ := (inRanges_iff hbs).mp hother
  have := hapart i (by omega) j (by omega)
  omega

theorem isRanges_blanks : IsRanges blanks :=
  isRanges_of_isChain (by decide +kernel) (by decide +kernel)

theorem isRanges_decimalDigits : IsRanges decimalDigits :=
  isRanges_of_isChain (by decide +kernel) (by decide +kernel)

theorem isDecimalDigit_of_isBlank {c : Char} (h : isBlank c = true) : isDecimalDigit c = false :=
  inRanges_eq_false isRanges_blanks isRanges_decimalDigits (by decide +kernel) h

/-- The decimal digits of ASCII. -/
theorem ascii_of_isDecimalDigit {c : Char} (h : isDecimalDigit c = true) (hc : c.toNat < 128) :
    '0' ≤ c ∧ c ≤ '9' := by
  have hall : ∀ n < 128, (boundariesUpTo decimalDigits n 0 decimalDigits.size % 2 == 1) = true →
      48 ≤ n ∧ n ≤ 57 := by decide +kernel
  exact hall c.toNat hc h

end SourceAudit.Text
