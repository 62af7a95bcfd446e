import Mathlib.Algebra.Order.Field.Power
import Mathlib.Tactic.Linarith
import Mathlib.Tactic.NormNum
import Mathlib.Tactic.Positivity
import Mathlib.Tactic.Ring
import SourceAudit.Number.Binary64

/-!
Doubles as rational numbers. A ratio is rounded at the place where it has 53 bits, to at most half a
unit above it (`ofRatio_spec`), so it gives a finite double unless it is half a unit beyond the
greatest one (`isFinite_ofRatio`).
-/

namespace SourceAudit.Number

/-- Rounding gives the quotient, or one more if the remainder is at least one half. -/
theorem roundDiv_cases (num den : Nat) :
    roundDiv num den = num / den ∨
      roundDiv num den = num / den + 1 ∧ den ≤ 2 * (num % den) := by
  simp only [roundDiv]
  split
  · exact .inl rfl
  · split
    · exact .inr ⟨rfl, by omega⟩
    · split
      · exact .inl rfl
      · exact .inr ⟨rfl, by omega⟩

theorem roundDiv_le (num : Nat) {den : Nat} (hden : 0 < den) :
    (roundDiv num den : ℚ) ≤ num / den + 1 / 2 := by
  have hpos : (0 : ℚ) < den := by exact_mod_cast hden
  have hsplit : (den * (num / den : Nat) + (num % den : Nat) : ℚ) = num := by
    exact_mod_cast Nat.div_add_mod num den
  rw [← sub_le_iff_le_add, le_div_iff₀ hpos]
  rcases roundDiv_cases num den with h | ⟨h, hr⟩
  · have hr : (0 : ℚ) ≤ (num % den : Nat) := Nat.cast_nonneg _
    rw [h]
    linarith
  · have hr : (den : ℚ) ≤ 2 * (num % den : Nat) := by exact_mod_cast hr
    rw [h, Nat.cast_add_one]
    linarith

/-- Rounding does not go below an integer. -/
theorem le_roundDiv {k num den : Nat} (hden : 0 < den) (h : (k : ℚ) ≤ num / den) :
    k ≤ roundDiv num den := by
  have hpos : (0 : ℚ) < den := by exact_mod_cast hden
  rw [le_div_iff₀ hpos] at h
  have hle : k ≤ num / den := (Nat.le_div_iff_mul_le hden).mpr (by exact_mod_cast h)
  rcases roundDiv_cases num den with h | ⟨h, -⟩
  · omega
  · omega

theorem shiftLeft_cast (a k : Nat) : ((a <<< k : Nat) : ℚ) = a * 2 ^ k := by
  rw [Nat.shiftLeft_eq]
  push_cast
  rfl

theorem zpow_of_neg {b : ℚ} {e : Int} (h : e < 0) : b ^ e = (b ^ e.natAbs)⁻¹ := by
  rw [← zpow_natCast, ← zpow_neg]
  congr 1
  omega

theorem zpow_of_nonneg {b : ℚ} {e : Int} (h : ¬ e < 0) : b ^ e = b ^ e.natAbs := by
  rw [← zpow_natCast]
  congr 1
  omega

theorem scaleTwo_value (a : Nat) (e : Int) :
    ((scaleTwo a e).1 : ℚ) / (scaleTwo a e).2 = a * 2 ^ e := by
  unfold scaleTwo
  split
  · rename_i h
    rw [zpow_of_neg h, shiftLeft_cast, Nat.cast_one, one_mul, div_eq_mul_inv]
  · rename_i h
    rw [zpow_of_nonneg h, shiftLeft_cast, Nat.cast_one, div_one]

theorem scaleTen_value (a : Nat) (e : Int) :
    ((scaleTen a e).1 : ℚ) / (scaleTen a e).2 = a * 10 ^ e := by
  unfold scaleTen
  split
  · rename_i h
    rw [zpow_of_neg h, div_eq_mul_inv, Nat.pow_eq, Nat.cast_pow, Nat.cast_ofNat]
  · rename_i h
    rw [zpow_of_nonneg h, Nat.cast_one, div_one, Nat.cast_mul, Nat.pow_eq, Nat.cast_pow,
      Nat.cast_ofNat]

namespace Binary64

/-- The absolute value of a finite double. -/
def value (x : Binary64) : ℚ := x.significand * 2 ^ x.exponent

theorem ratio_value (x : Binary64) : (x.ratio.1 : ℚ) / x.ratio.2 = x.value :=
  scaleTwo_value _ _

/-! ### Doubles from significand and exponent -/

theorem biased_toUInt64 (n : Nat) : biased ⟨n.toUInt64⟩ = n / 2 ^ 52 % 2048 := by
  have hword : (n.toUInt64).toNat = n % 2 ^ 64 := UInt64.toNat_ofNat'
  rw [biased, hword, Nat.shiftRight_eq_div_pow]
  omega

theorem fraction_toUInt64 (n : Nat) : fraction ⟨n.toUInt64⟩ = n % 2 ^ 52 := by
  have hword : (n.toUInt64).toNat = n % 2 ^ 64 := UInt64.toNat_ofNat'
  have hone : 1 <<< 52 = 2 ^ 52 := by decide
  rw [fraction, hword, hone]
  omega

theorem isNegative_toUInt64 (n : Nat) :
    isNegative ⟨n.toUInt64⟩ = decide (n % 2 ^ 64 / 2 ^ 63 = 1) := by
  have hword : (n.toUInt64).toNat = n % 2 ^ 64 := UInt64.toNat_ofNat'
  rw [isNegative, hword, Nat.shiftRight_eq_div_pow]

theorem isFinite_zero (negative : Bool) : (zero negative).isFinite = true := by
  cases negative <;> decide

/-- The significand and the exponent are those of a finite double. -/
structure InRange (m : Nat) (e : Int) : Prop where
  significand_lt : m < 2 ^ 53
  least_le : leastExponent ≤ e
  le_greatest : e ≤ greatestExponent
  normal : e = leastExponent ∨ 2 ^ 52 ≤ m

/-- A double is packed so that it has its sign, its significand and its exponent back. -/
theorem InRange.fields_pack {m : Nat} {e : Int} (h : InRange m e) (negative : Bool) :
    (pack negative m e).isNegative = negative ∧ (pack negative m e).significand = m ∧
      (pack negative m e).exponent = e ∧ (pack negative m e).isFinite = true := by
  obtain ⟨hm, hlow, hhigh, hnormal⟩ := h
  have hsign : signBit negative = negative.toNat * 2 ^ 63 := by cases negative <;> rfl
  have hbit : negative.toNat < 2 := Bool.toNat_lt negative
  have hnegative : decide (negative.toNat = 1) = negative := by cases negative <;> rfl
  have hone : 1 <<< 52 = 2 ^ 52 := by decide
  simp only [leastExponent] at hlow hnormal
  simp only [greatestExponent] at hhigh
  obtain ⟨k, hk⟩ : ∃ k : Nat, e + 1075 = k := Int.eq_ofNat_of_zero_le (by omega)
  unfold Binary64.pack
  rw [hone, hk, Int.toNat_natCast, Nat.shiftLeft_eq, hsign]
  by_cases hsmall : m < 2 ^ 52
  · rw [if_pos hsmall]
    generalize hx : (⟨(negative.toNat * 2 ^ 63 + m).toUInt64⟩ : Binary64) = x
    have htop : (negative.toNat * 2 ^ 63 + m) % 2 ^ 64 / 2 ^ 63 = negative.toNat := by omega
    have hbiased : x.biased = 0 := by
      rw [← hx, biased_toUInt64]
      omega
    have hfraction : x.fraction = m := by
      rw [← hx, fraction_toUInt64]
      omega
    have he : leastExponent = e := by
      simp only [leastExponent]
      omega
    refine ⟨by rw [← hx, isNegative_toUInt64, htop, hnegative], ?_⟩
    simp [isFinite, significand, exponent, hbiased, hfraction, he]
  · rw [if_neg hsmall]
    generalize hx :
      (⟨(negative.toNat * 2 ^ 63 + k * 2 ^ 52 + (m - 2 ^ 52)).toUInt64⟩ : Binary64) = x
    have htop : (negative.toNat * 2 ^ 63 + k * 2 ^ 52 + (m - 2 ^ 52)) % 2 ^ 64 / 2 ^ 63 =
        negative.toNat := by omega
    have hbiased : x.biased = k := by
      rw [← hx, biased_toUInt64]
      omega
    have hfraction : x.fraction = m - 2 ^ 52 := by
      rw [← hx, fraction_toUInt64]
      omega
    have hsignificand : x.significand = m := by
      rw [significand, hbiased, if_neg (by omega), hfraction, hone]
      omega
    have hexponent : x.exponent = e := by
      rw [exponent, hbiased, if_neg (by omega)]
      omega
    refine ⟨by rw [← hx, isNegative_toUInt64, htop, hnegative], hsignificand, hexponent, ?_⟩
    simp only [isFinite, hbiased, decide_eq_true_eq]
    omega

theorem InRange.pack {m : Nat} {e : Int} (h : InRange m e) (negative : Bool) :
    (pack negative m e).isFinite = true ∧ (pack negative m e).value = m * 2 ^ e := by
  obtain ⟨-, hsignificand, hexponent, hfinite⟩ := h.fields_pack negative
  exact ⟨hfinite, by rw [value, hsignificand, hexponent]⟩

/-! ### Rounding a ratio -/

section

variable {num den : Nat} {e : Int}

/-- A ratio in units of a power of two, as a ratio. -/
def shifted (num den : Nat) (e : Int) : Nat × Nat :=
  if e < 0 then (num <<< e.natAbs, den) else (num, den <<< e.natAbs)

theorem shifted_pos (num : Nat) (hden : 0 < den) (e : Int) : 0 < (shifted num den e).2 := by
  unfold shifted
  split
  · exact hden
  · rw [Nat.shiftLeft_eq]
    exact Nat.mul_pos hden (Nat.two_pow_pos _)

theorem shifted_value (num den : Nat) (e : Int) :
    ((shifted num den e).1 : ℚ) / (shifted num den e).2 = num / den / 2 ^ e := by
  unfold shifted
  split
  · rename_i h
    rw [zpow_of_neg h, shiftLeft_cast, div_inv_eq_mul]
    ring
  · rename_i h
    rw [zpow_of_nonneg h, shiftLeft_cast, div_div]

theorem roundedAt_eq (num den : Nat) (e : Int) :
    roundedAt num den e = roundDiv (shifted num den e).1 (shifted num den e).2 := by
  unfold roundedAt shifted
  split <;> rfl

theorem two_zpow_pos (e : Int) : (0 : ℚ) < 2 ^ e := zpow_pos two_pos e

/-- The rounded ratio is at most half a unit above the ratio. -/
theorem roundedAt_le (num : Nat) (hden : 0 < den) (e : Int) :
    (roundedAt num den e : ℚ) * 2 ^ e ≤ num / den + 2 ^ e / 2 := by
  have hle := roundDiv_le (shifted num den e).1 (shifted_pos num hden e)
  rw [shifted_value, ← roundedAt_eq] at hle
  calc (roundedAt num den e : ℚ) * 2 ^ e ≤ (num / den / 2 ^ e + 1 / 2) * 2 ^ e :=
        mul_le_mul_of_nonneg_right hle (two_zpow_pos e).le
    _ = num / den + 2 ^ e / 2 := by
        rw [add_mul, div_mul_cancel₀ _ (two_zpow_pos e).ne']
        ring

theorem le_roundedAt {k : Nat} (hden : 0 < den) (h : (k : ℚ) * 2 ^ e ≤ num / den) :
    k ≤ roundedAt num den e := by
  rw [roundedAt_eq]
  apply le_roundDiv (shifted_pos num hden e)
  rwa [shifted_value, le_div_iff₀ (two_zpow_pos e)]

/-- A significand that has one bit too many is carried over to the next exponent. -/
def carried (negative : Bool) (m : Nat) (e : Int) : Binary64 :=
  let (m, e) := if m = 1 <<< 53 then (1 <<< 52, e + 1) else (m, e)
  if e > greatestExponent then infinity negative else pack negative m e

/-- The exponent at which a ratio is rounded: it has 53 bits there, unless it is too small. -/
structure IsPlace (num den : Nat) (e : Int) : Prop where
  least_le : leastExponent ≤ e
  normal : e = leastExponent ∨ (2 : ℚ) ^ 52 * 2 ^ e ≤ num / den
  lt : (num : ℚ) / den < 2 ^ 53 * 2 ^ e

/-- The bits of numerator and denominator tell the size of a ratio up to a factor of four. -/
theorem ratio_bounds (hnum : 0 < num) (hden : 0 < den) :
    (2 : ℚ) ^ ((num.log2 : Int) - den.log2 - 1) ≤ num / den ∧
      (num : ℚ) / den < 2 ^ ((num.log2 : Int) - den.log2 + 1) := by
  have hlow : (2 : ℚ) ^ (num.log2 : Int) ≤ num := by
    exact_mod_cast Nat.log2_self_le hnum.ne'
  have hhigh : (num : ℚ) < 2 ^ ((num.log2 : Int) + 1) := by
    exact_mod_cast Nat.lt_log2_self (n := num)
  have hlow' : (2 : ℚ) ^ (den.log2 : Int) ≤ den := by
    exact_mod_cast Nat.log2_self_le hden.ne'
  have hhigh' : (den : ℚ) < 2 ^ ((den.log2 : Int) + 1) := by
    exact_mod_cast Nat.lt_log2_self (n := den)
  have hpos : (0 : ℚ) < den := by exact_mod_cast hden
  constructor
  · rw [le_div_iff₀ hpos]
    calc (2 : ℚ) ^ ((num.log2 : Int) - den.log2 - 1) * den
        ≤ 2 ^ ((num.log2 : Int) - den.log2 - 1) * 2 ^ ((den.log2 : Int) + 1) :=
          mul_le_mul_of_nonneg_left hhigh'.le (two_zpow_pos _).le
      _ = 2 ^ (num.log2 : Int) := by
          rw [← zpow_add₀ two_ne_zero]
          congr 1
          omega
      _ ≤ num := hlow
  · rw [div_lt_iff₀ hpos]
    calc (num : ℚ) < 2 ^ ((num.log2 : Int) + 1) := hhigh
      _ = 2 ^ ((num.log2 : Int) - den.log2 + 1) * 2 ^ (den.log2 : Int) := by
          rw [← zpow_add₀ two_ne_zero]
          congr 1
          omega
      _ ≤ 2 ^ ((num.log2 : Int) - den.log2 + 1) * den :=
          mul_le_mul_of_nonneg_left hlow' (two_zpow_pos _).le

theorem two_pow_mul_zpow (k : Nat) (e : Int) : (2 : ℚ) ^ k * 2 ^ e = 2 ^ (k + e) := by
  rw [zpow_add₀ two_ne_zero, zpow_natCast]

theorem shifted_div_lt_iff (num : Nat) (hden : 0 < den) (e : Int) (k : Nat) :
    (shifted num den e).1 / (shifted num den e).2 < k ↔ (num : ℚ) / den < k * 2 ^ e := by
  have hpos := shifted_pos num hden e
  have hcast : (0 : ℚ) < (shifted num den e).2 := by exact_mod_cast hpos
  rw [Nat.div_lt_iff_lt_mul hpos, ← div_lt_iff₀ (two_zpow_pos e), ← shifted_value,
    div_lt_iff₀ hcast]
  exact_mod_cast Iff.rfl

/-- A ratio is rounded at its place. -/
theorem ofRatio_eq (negative : Bool) (hnum : 0 < num) (hden : 0 < den) :
    ∃ e, IsPlace num den e ∧
      ofRatio negative num den = carried negative (roundedAt num den e) e := by
  have hzero : ¬ (num = 0 ∨ den = 0) := by omega
  have hbits : 1 <<< 53 = 2 ^ 53 := by decide
  obtain ⟨hlow, hhigh⟩ := ratio_bounds hnum hden
  obtain ⟨guess, hguess⟩ : ∃ g : Int, (num.log2 : Int) - den.log2 - 53 = g := ⟨_, rfl⟩
  have hlogs : (num.log2 : Int) - den.log2 = guess + 53 := by omega
  rw [hlogs] at hlow hhigh
  -- the place before it is raised to the least one
  obtain ⟨top, htop⟩ : ∃ e : Int,
      (if (shifted num den guess).1 / (shifted num den guess).2 < 1 <<< 53 then guess
        else guess + 1) = e := ⟨_, rfl⟩
  have hplace : (2 : ℚ) ^ 52 * 2 ^ top ≤ num / den ∧ (num : ℚ) / den < 2 ^ 53 * 2 ^ top := by
    have hiff := shifted_div_lt_iff num hden guess (2 ^ 53)
    rw [Nat.cast_pow, Nat.cast_ofNat] at hiff
    rw [hbits] at htop
    simp only [two_pow_mul_zpow] at hiff ⊢
    split at htop
    · rename_i hlt
      subst htop
      refine ⟨le_trans (le_of_eq ?_) hlow, hiff.mp hlt⟩
      congr 1
      push_cast
      ring
    · rename_i hge
      subst htop
      rw [hiff, not_lt] at hge
      refine ⟨le_trans (le_of_eq ?_) hge, lt_of_lt_of_eq hhigh ?_⟩
      · congr 1
        push_cast
        ring
      · congr 1
        push_cast
        ring
  refine ⟨max leastExponent top, ⟨le_max_left _ _, ?_, ?_⟩, ?_⟩
  · rcases le_total top leastExponent with h | h
    · exact .inl (max_eq_left h)
    · rw [max_eq_right h]
      exact .inr hplace.1
  · refine lt_of_lt_of_le hplace.2 (mul_le_mul_of_nonneg_left ?_ (by positivity))
    exact zpow_le_zpow_right₀ one_le_two (le_max_right _ _)
  · rw [ofRatio, if_neg hzero, ← htop, ← hguess]
    rfl

theorem zpow_lt_iff {a b : Int} : (2 : ℚ) ^ a < 2 ^ b ↔ a < b :=
  zpow_lt_zpow_iff_right₀ one_lt_two

/-- Carrying keeps the value, if there is a finite double of it, and keeps an even significand
even. -/
theorem carried_eq (negative : Bool) {m : Nat} (hm : m ≤ 2 ^ 53) (hlow : leastExponent ≤ e)
    (hnormal : e = leastExponent ∨ 2 ^ 52 ≤ m)
    (hfit : (m : ℚ) * 2 ^ e < 2 ^ 53 * 2 ^ greatestExponent) :
    ∃ m' e', InRange m' e' ∧ carried negative m e = pack negative m' e' ∧
      (m' : ℚ) * 2 ^ e' = m * 2 ^ e ∧ (Even m → Even m') := by
  have hbits : 1 <<< 53 = 2 ^ 53 := by decide
  have hhalf : 1 <<< 52 = 2 ^ 52 := by decide
  have hleast : leastExponent = -1074 := rfl
  have hgreatest : greatestExponent = 971 := rfl
  rw [carried, hbits, hhalf]
  by_cases hcarry : m = 2 ^ 53
  · have he : e < greatestExponent := by
      rw [hcarry, Nat.cast_pow, Nat.cast_ofNat] at hfit
      exact zpow_lt_iff.mp (lt_of_mul_lt_mul_left hfit (by positivity))
    have hrange : InRange (2 ^ 52) (e + 1) := ⟨by decide, by omega, by omega, .inr le_rfl⟩
    have hgt : ¬ e + 1 > greatestExponent := by omega
    simp only [if_pos hcarry, if_neg hgt]
    refine ⟨2 ^ 52, e + 1, hrange, rfl, ?_, fun _ => by decide⟩
    rw [hcarry, Nat.cast_pow, Nat.cast_pow, Nat.cast_ofNat, two_pow_mul_zpow, two_pow_mul_zpow]
    congr 1
    push_cast
    ring
  · have he : e ≤ greatestExponent := by
      rcases hnormal with h | h
      · omega
      · have hcast : (2 : ℚ) ^ 52 ≤ m := by exact_mod_cast h
        have hlt := lt_of_le_of_lt (mul_le_mul_of_nonneg_right hcast (two_zpow_pos e).le) hfit
        rw [two_pow_mul_zpow, two_pow_mul_zpow, zpow_lt_iff] at hlt
        push_cast at hlt
        omega
    have hrange : InRange m e := ⟨by omega, hlow, he, hnormal⟩
    have hgt : ¬ e > greatestExponent := by omega
    simp only [if_neg hcarry, if_neg hgt]
    exact ⟨m, e, hrange, rfl, rfl, id⟩

/-- Half a unit beyond the greatest double: what is below it does not round to infinity. -/
def overflowBound : ℚ := (2 ^ 53 - 1 / 2) * 2 ^ greatestExponent

/-- A ratio that is not too large is rounded at its place and packed. -/
theorem ofRatio_eq_pack (negative : Bool) (hnum : 0 < num) (hden : 0 < den)
    (h : (num : ℚ) / den < overflowBound) :
    ∃ e m' e', IsPlace num den e ∧ InRange m' e' ∧
      ofRatio negative num den = pack negative m' e' ∧
      (m' : ℚ) * 2 ^ e' = roundedAt num den e * 2 ^ e ∧
      (Even (roundedAt num den e) → Even m') := by
  obtain ⟨e, hplace, heq⟩ := ofRatio_eq negative hnum hden
  have hle := roundedAt_le num hden e
  have hpos := two_zpow_pos e
  have hm : roundedAt num den e ≤ 2 ^ 53 := by
    have hlt := hplace.lt
    have hcast : (roundedAt num den e : ℚ) < 2 ^ 53 + 1 := by
      refine lt_of_mul_lt_mul_right ?_ hpos.le
      linarith
    have : roundedAt num den e < 2 ^ 53 + 1 := by exact_mod_cast hcast
    omega
  have hnormal : e = leastExponent ∨ 2 ^ 52 ≤ roundedAt num den e := by
    rcases hplace.normal with h | h
    · exact .inl h
    · exact .inr (le_roundedAt hden (by exact_mod_cast h))
  have he : (2 : ℚ) ^ e ≤ 2 ^ greatestExponent := by
    apply zpow_le_zpow_right₀ one_le_two
    rcases hplace.normal with h' | h'
    · rw [h']
      decide
    · have hlt : (2 : ℚ) ^ 52 * 2 ^ e < 2 ^ 53 * 2 ^ greatestExponent := by
        refine lt_of_le_of_lt h' (lt_trans h ?_)
        exact mul_lt_mul_of_pos_right (by norm_num) (two_zpow_pos _)
      rw [two_pow_mul_zpow, two_pow_mul_zpow, zpow_lt_iff] at hlt
      push_cast at hlt
      omega
  have hfit : (roundedAt num den e : ℚ) * 2 ^ e < 2 ^ 53 * 2 ^ greatestExponent := by
    rw [overflowBound] at h
    linarith
  obtain ⟨m', e', hrange, hpack, hvalue, heven⟩ :=
    carried_eq negative hm hplace.least_le hnormal hfit
  exact ⟨e, m', e', hplace, hrange, heq.trans hpack, hvalue, heven⟩

/-- What comes of rounding a ratio that is not too large. -/
theorem ofRatio_spec (negative : Bool) (hnum : 0 < num) (hden : 0 < den)
    (h : (num : ℚ) / den < overflowBound) :
    ∃ e, IsPlace num den e ∧ (ofRatio negative num den).isFinite = true ∧
      (ofRatio negative num den).value = roundedAt num den e * 2 ^ e := by
  obtain ⟨e, m', e', hplace, hrange, heq, hvalue, -⟩ := ofRatio_eq_pack negative hnum hden h
  obtain ⟨hfinite, hpacked⟩ := hrange.pack negative
  rw [heq]
  exact ⟨e, hplace, hfinite, hpacked.trans hvalue⟩

/-- A ratio that is not too large gives a finite double. -/
theorem isFinite_ofRatio (negative : Bool) (h : (num : ℚ) / den < overflowBound) :
    (ofRatio negative num den).isFinite = true := by
  by_cases hzero : num = 0 ∨ den = 0
  · rw [ofRatio, if_pos hzero]
    exact isFinite_zero negative
  · obtain ⟨_, _, hfinite, _⟩ := ofRatio_spec negative (by omega) (by omega) h
    exact hfinite

/-- The double nearest to a positive integer is at least one, and relatively not much greater than
the integer. -/
theorem value_ofRatio_one (negative : Bool) (hnum : 0 < num) (h : (num : ℚ) < overflowBound) :
    1 ≤ (ofRatio negative num 1).value ∧
      (ofRatio negative num 1).value ≤ num * (1 + 1 / 2 ^ 53) := by
  obtain ⟨e, hplace, -, hvalue⟩ :=
    ofRatio_spec negative hnum one_pos (by rwa [Nat.cast_one, div_one])
  have hle := roundedAt_le num one_pos e
  have hnormal := hplace.normal
  have hlt := hplace.lt
  rw [Nat.cast_one, div_one] at hle hnormal hlt
  have hone : (1 : ℚ) ≤ num := by exact_mod_cast hnum
  have he : (2 : ℚ) ^ 52 * 2 ^ e ≤ num := by
    rcases hnormal with h' | h'
    · rw [h', two_pow_mul_zpow] at hlt
      have hsmall : (2 : ℚ) ^ (((53 : Nat) : Int) + leastExponent) < 2 ^ (0 : Int) :=
        zpow_lt_iff.mpr (by decide)
      rw [zpow_zero] at hsmall
      linarith
    · exact h'
  rw [hvalue]
  constructor
  · rcases le_total 0 e with h' | h'
    · have hm : 2 ^ 52 ≤ roundedAt num 1 e :=
        le_roundedAt one_pos (by rw [Nat.cast_one, div_one]; exact_mod_cast he)
      have hcast : (1 : ℚ) ≤ roundedAt num 1 e := by exact_mod_cast le_trans (by decide) hm
      exact one_le_mul_of_one_le_of_one_le hcast (one_le_zpow₀ one_le_two h')
    · -- one is a whole number of units
      have hunit : ((2 ^ e.natAbs : Nat) : ℚ) * 2 ^ e = 1 := by
        rw [Nat.cast_pow, Nat.cast_ofNat, two_pow_mul_zpow]
        have : ((e.natAbs : Int) + e) = 0 := by omega
        rw [this, zpow_zero]
      have hm : 2 ^ e.natAbs ≤ roundedAt num 1 e :=
        le_roundedAt one_pos (by rw [Nat.cast_one, div_one, hunit]; exact hone)
      calc (1 : ℚ) = ((2 ^ e.natAbs : Nat) : ℚ) * 2 ^ e := hunit.symm
        _ ≤ roundedAt num 1 e * 2 ^ e :=
          mul_le_mul_of_nonneg_right (by exact_mod_cast hm) (two_zpow_pos e).le
  · linarith

end

/-! ### Integers, products and quotients -/

theorem two_pow_lt_overflowBound : (2 : ℚ) ^ 64 < overflowBound := by
  have hpow : (2 : ℚ) ^ (20 : Int) ≤ 2 ^ greatestExponent :=
    zpow_le_zpow_right₀ one_le_two (by decide)
  calc (2 : ℚ) ^ 64 < (2 ^ 53 - 1 / 2) * 2 ^ (20 : Int) := by norm_num
    _ ≤ overflowBound := mul_le_mul_of_nonneg_left hpow (by norm_num)

/-- The double nearest to an integer of 64 bits. -/
theorem isFinite_ofInt {n : Int} (h : n.natAbs < 2 ^ 64) : (ofInt n).isFinite = true := by
  apply isFinite_ofRatio
  rw [Nat.cast_one, div_one]
  exact lt_trans (by exact_mod_cast h) two_pow_lt_overflowBound

theorem significand_lt (x : Binary64) : x.significand < 2 ^ 53 := by
  have hone : 1 <<< 52 = 2 ^ 52 := by decide
  have hfraction : x.fraction < 2 ^ 52 := by
    rw [fraction, hone]
    exact Nat.mod_lt _ (by decide)
  rw [significand, hone]
  split <;> omega

theorem exponent_le {x : Binary64} (h : x.isFinite = true) : x.exponent ≤ greatestExponent := by
  have hbiased : x.biased < 2048 := Nat.mod_lt _ (by decide)
  simp only [isFinite, ne_eq, decide_not, Bool.not_eq_true', decide_eq_false_iff_not] at h
  rw [exponent]
  split
  · decide
  · simp only [greatestExponent]
    omega

theorem value_nonneg (x : Binary64) : 0 ≤ x.value :=
  mul_nonneg (Nat.cast_nonneg _) (two_zpow_pos _).le

theorem value_lt {x : Binary64} (h : x.isFinite = true) : x.value < overflowBound := by
  have hm : (x.significand : ℚ) ≤ 2 ^ 53 - 1 := by
    have := x.significand_lt
    rw [le_sub_iff_add_le]
    exact_mod_cast this
  have he : (2 : ℚ) ^ x.exponent ≤ 2 ^ greatestExponent :=
    zpow_le_zpow_right₀ one_le_two (exponent_le h)
  calc x.value ≤ (2 ^ 53 - 1) * 2 ^ greatestExponent :=
        mul_le_mul hm he (two_zpow_pos _).le (by norm_num)
    _ < overflowBound := mul_lt_mul_of_pos_right (by norm_num) (two_zpow_pos _)

theorem mulAbs_eq (x y : Binary64) :
    x.mulAbs y = ofRatio false (x.ratio.1 * y.ratio.1) (x.ratio.2 * y.ratio.2) := rfl

theorem divAbs_eq (x y : Binary64) :
    x.divAbs y = ofRatio false (x.ratio.1 * y.ratio.2) (x.ratio.2 * y.ratio.1) := rfl

theorem isFinite_mulAbs {x y : Binary64} (h : x.value * y.value < overflowBound) :
    (x.mulAbs y).isFinite = true := by
  rw [mulAbs_eq]
  apply isFinite_ofRatio
  rwa [Nat.cast_mul, Nat.cast_mul, mul_div_mul_comm, ratio_value, ratio_value]

/-- Dividing by at least one does not make a finite double too large. -/
theorem isFinite_divAbs {x y : Binary64} (hx : x.isFinite = true) (hy : 1 ≤ y.value) :
    (x.divAbs y).isFinite = true := by
  rw [divAbs_eq]
  apply isFinite_ofRatio
  rw [Nat.cast_mul, Nat.cast_mul, ← div_div_div_eq, ratio_value, ratio_value]
  exact lt_of_le_of_lt (div_le_self x.value_nonneg hy) (value_lt hx)

/-- The sign does not matter for whether a double is finite. -/
theorem isFinite_neg (x : Binary64) : x.neg.isFinite = x.isFinite := by
  have hbiased : x.neg.biased = x.biased := by
    have hmod : (signBit true).toUInt64.toNat >>> 52 % 2 ^ 11 = 0 := by decide
    show (x.bits ^^^ (signBit true).toUInt64).toNat >>> 52 % 2 ^ 11 = x.bits.toNat >>> 52 % 2 ^ 11
    rw [UInt64.toNat_xor, Nat.shiftRight_xor_distrib, Nat.xor_mod_two_pow, hmod, Nat.xor_zero]
  rw [isFinite, isFinite, hbiased]

end Binary64
end SourceAudit.Number
