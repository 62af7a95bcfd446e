import SourceAudit.Number.Decimal
import SourceAudit.Proofs.Number.Binary64

/-!
The shortest decimal of a double. It is at most half a unit above the double (`shortest_le`), because
it reads back.
-/

namespace SourceAudit.Number

/-- The number that a decimal stands for. -/
def Decimal.value (d : Decimal) : ℚ := d.digits * 10 ^ d.exponent

theorem scaleTwo_pos (a : Nat) (e : Int) : 0 < (scaleTwo a e).2 := by
  unfold scaleTwo
  split
  · rw [Nat.shiftLeft_eq]
    exact Nat.mul_pos Nat.one_pos (Nat.two_pow_pos _)
  · exact Nat.one_pos

theorem scaleTen_pos (a : Nat) (e : Int) : 0 < (scaleTen a e).2 := by
  unfold scaleTen
  split
  · exact Nat.pow_pos (by decide)
  · exact Nat.one_pos

theorem Decimal.value_le_of_leRatio {d : Decimal} {num den : Nat} (hden : 0 < den)
    (h : d.leRatio num den = true) : d.value ≤ num / den := by
  have hpos : (0 : ℚ) < den := by exact_mod_cast hden
  have hpos' : (0 : ℚ) < (scaleTen d.digits d.exponent).2 := by
    exact_mod_cast scaleTen_pos d.digits d.exponent
  have hle : (scaleTen d.digits d.exponent).1 * den ≤ num * (scaleTen d.digits d.exponent).2 :=
    of_decide_eq_true h
  rw [value, ← scaleTen_value, div_le_div_iff₀ hpos' hpos]
  exact_mod_cast hle

theorem Decimal.leRatio_of_ltRatio {d : Decimal} {num den : Nat} (h : d.ltRatio num den = true) :
    d.leRatio num den = true := by
  have hlt : (scaleTen d.digits d.exponent).1 * den < num * (scaleTen d.digits d.exponent).2 :=
    of_decide_eq_true h
  exact decide_eq_true hlt.le

namespace Binary64

/-- A decimal that reads back is at most half a unit above the double. -/
theorem value_le_of_readsBack {x : Binary64} {d : Decimal} (h : x.readsBack d = true) :
    d.value ≤ (x.significand + 1 / 2) * 2 ^ x.exponent := by
  have hle : d.leRatio (scaleTwo (4 * x.significand + 2) (x.exponent - 2)).1
      (scaleTwo (4 * x.significand + 2) (x.exponent - 2)).2 = true := by
    simp only [readsBack, interval] at h
    split at h
    · exact (Bool.and_eq_true_iff.mp h).2
    · exact Decimal.leRatio_of_ltRatio (Bool.and_eq_true_iff.mp h).2
  have hvalue := Decimal.value_le_of_leRatio (scaleTwo_pos _ _) hle
  rw [scaleTwo_value, zpow_sub₀ two_ne_zero] at hvalue
  push_cast at hvalue
  refine hvalue.trans (le_of_eq ?_)
  ring

theorem readsBack_of_first {x : Binary64} {first second d : Decimal}
    (h : (if x.readsBack first then some first
      else if x.readsBack second then some second else none) = some d) : x.readsBack d = true := by
  split at h
  · rename_i hfirst
    cases h
    exact hfirst
  · split at h
    · rename_i hsecond
      cases h
      exact hsecond
    · cases h

theorem readsBack_of_candidateAt {x : Binary64} {place : Int} {d : Decimal}
    (h : x.candidateAt place = some d) : x.readsBack d = true := by
  unfold candidateAt at h
  exact readsBack_of_first h

theorem shortestFrom_le (x : Binary64) (top : Int) (fuel n : Nat) :
    (shortestFrom x top fuel n).value ≤ (x.significand + 1 / 2) * 2 ^ x.exponent := by
  induction fuel generalizing n with
  | zero =>
    rw [shortestFrom, Decimal.value, Nat.cast_zero, zero_mul]
    exact mul_nonneg (by positivity) (two_zpow_pos _).le
  | succ fuel ih =>
    rw [shortestFrom]
    split
    · rename_i d hd
      exact value_le_of_readsBack (readsBack_of_candidateAt hd)
    · exact ih (n + 1)

theorem value_stripZeros (fuel : Nat) (d : Decimal) : (stripZeros fuel d).value = d.value := by
  induction fuel generalizing d with
  | zero => rfl
  | succ fuel ih =>
    rw [stripZeros]
    split
    · rename_i h
      have hten : d.digits = d.digits / 10 * 10 := by omega
      rw [ih, Decimal.value, Decimal.value, zpow_add_one₀ (by norm_num)]
      conv_rhs => rw [hten]
      push_cast
      ring
    · rfl

/-- The shortest decimal is at most half a unit above the double. -/
theorem shortest_le (x : Binary64) :
    x.shortest.value ≤ (x.significand + 1 / 2) * 2 ^ x.exponent := by
  unfold shortest
  split
  · rw [Decimal.value, Nat.cast_zero, zero_mul]
    exact mul_nonneg (by positivity) (two_zpow_pos _).le
  · rw [value_stripZeros]
    exact shortestFrom_le x _ _ _

end Binary64
end SourceAudit.Number
