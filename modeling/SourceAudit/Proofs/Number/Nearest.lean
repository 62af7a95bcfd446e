import Mathlib.Algebra.Order.Ring.Abs
import SourceAudit.Proofs.Number.Binary64

/-!
Rounding is correct (`rounds_ofRatio`): the double of a ratio has the given sign, no finite double is
nearer to the ratio, and if another one is as near, its significand is even; a ratio that is half a
unit beyond the greatest double or more gives infinity. There is only one such double
(`Rounds.unique`).
-/

namespace SourceAudit.Number

/-! ### Nearest integers -/

/-- The integer is at most one half away from the number, and even if it is exactly one half. -/
structure IsNearest (v : ℚ) (m : Nat) : Prop where
  near : |(m : ℚ) - v| ≤ 1 / 2
  even : |(m : ℚ) - v| = 1 / 2 → Even m

theorem IsNearest.half_le {v : ℚ} {m k : Nat} (h : IsNearest v m) (hne : k ≠ m) :
    1 / 2 ≤ |(k : ℚ) - v| := by
  have hone : (1 : ℚ) ≤ |(k : ℚ) - m| := by
    have hint : (1 : Int) ≤ |(k : Int) - m| := Int.one_le_abs (by omega)
    exact_mod_cast hint
  have hsum : |(k : ℚ) - m| ≤ |(k : ℚ) - v| + |(m : ℚ) - v| := by
    rw [abs_sub_comm (m : ℚ) v]
    exact abs_sub_le _ _ _
  linarith [h.near]

theorem IsNearest.le {v : ℚ} {m : Nat} (h : IsNearest v m) (k : Nat) :
    |(m : ℚ) - v| ≤ |(k : ℚ) - v| := by
  by_cases hk : k = m
  · rw [hk]
  · exact h.near.trans (h.half_le hk)

theorem IsNearest.even_of_tie {v : ℚ} {m k : Nat} (h : IsNearest v m) (hne : k ≠ m)
    (htie : |(m : ℚ) - v| = |(k : ℚ) - v|) : Even m :=
  h.even (le_antisymm h.near (htie ▸ h.half_le hne))

theorem isNearest_roundDiv (num : Nat) {den : Nat} (hden : 0 < den) :
    IsNearest (num / den) (roundDiv num den) := by
  have hpos : (0 : ℚ) < den := by exact_mod_cast hden
  have hsplit : (num : ℚ) / den = (num / den : Nat) + (num % den : Nat) / den := by
    rw [eq_comm, eq_div_iff hpos.ne', add_mul, div_mul_cancel₀ _ hpos.ne']
    exact_mod_cast Nat.div_add_mod' num den
  have hfraction : (0 : ℚ) ≤ (num % den : Nat) / den := by positivity
  have hless : ((num % den : Nat) : ℚ) / den < 1 / 2 ↔ 2 * (num % den) < den := by
    rw [div_lt_div_iff₀ hpos two_pos, one_mul, mul_comm]
    exact_mod_cast Iff.rfl
  have hmore : (1 : ℚ) / 2 < (num % den : Nat) / den ↔ den < 2 * (num % den) := by
    rw [div_lt_div_iff₀ two_pos hpos, one_mul, mul_comm]
    exact_mod_cast Iff.rfl
  have hone : ((num % den : Nat) : ℚ) / den < 1 := by
    rw [div_lt_one hpos]
    exact_mod_cast Nat.mod_lt num hden
  rw [hsplit]
  generalize ((num % den : Nat) : ℚ) / den = f at hfraction hless hmore hone
  have hdown (q : Nat) : |(q : ℚ) - (q + f)| = f := by
    rw [sub_add_cancel_left, abs_neg, abs_of_nonneg hfraction]
  have hup (q : Nat) : |((q + 1 : Nat) : ℚ) - (q + f)| = 1 - f := by
    rw [Nat.cast_add_one, add_sub_add_left_eq_sub, abs_of_pos (by linarith)]
  simp only [roundDiv]
  split
  · rename_i hlow
    have hf := hless.mpr hlow
    exact ⟨by rw [hdown]; linarith, fun htie => by rw [hdown] at htie; linarith⟩
  rename_i hlow
  have hf := not_lt.mp (mt hless.mp hlow)
  split
  · rename_i hhigh
    have hf' := hmore.mpr hhigh
    exact ⟨by rw [hup]; linarith, fun htie => by rw [hup] at htie; linarith⟩
  rename_i hhigh
  have hf' := not_lt.mp (mt hmore.mp hhigh)
  split
  · rename_i heven
    exact ⟨by rw [hdown]; linarith, fun _ => Nat.even_iff.mpr heven⟩
  · rename_i hodd
    exact ⟨by rw [hup]; linarith, fun _ => Nat.even_iff.mpr (by omega)⟩

namespace Binary64

/-! ### Nearest multiples of a power of two -/

theorem isNearest_roundedAt (num : Nat) {den : Nat} (hden : 0 < den) (e : Int) :
    IsNearest (num / den / 2 ^ e) (roundedAt num den e) := by
  rw [roundedAt_eq, ← shifted_value]
  exact isNearest_roundDiv _ (shifted_pos num hden e)

theorem abs_mul_zpow_sub (a v : ℚ) (e : Int) : |a * 2 ^ e - v| = |a - v / 2 ^ e| * 2 ^ e := by
  have hpos := two_zpow_pos e
  rw [← abs_of_pos hpos, ← abs_mul, abs_of_pos hpos, sub_mul, div_mul_cancel₀ _ hpos.ne']

theorem dist_le_of_grid {v : ℚ} {e : Int} {m : Nat} (h : IsNearest (v / 2 ^ e) m) (k : Nat) :
    |(m : ℚ) * 2 ^ e - v| ≤ |(k : ℚ) * 2 ^ e - v| := by
  rw [abs_mul_zpow_sub, abs_mul_zpow_sub]
  exact mul_le_mul_of_nonneg_right (h.le k) (two_zpow_pos e).le

theorem even_of_grid {v : ℚ} {e : Int} {m k : Nat} (h : IsNearest (v / 2 ^ e) m) (hne : k ≠ m)
    (htie : |(m : ℚ) * 2 ^ e - v| = |(k : ℚ) * 2 ^ e - v|) : Even m := by
  rw [abs_mul_zpow_sub, abs_mul_zpow_sub] at htie
  exact h.even_of_tie hne (mul_right_cancel₀ (two_zpow_pos e).ne' htie)

theorem leastExponent_le (x : Binary64) : leastExponent ≤ x.exponent := by
  rw [exponent]
  split
  · exact le_rfl
  · simp only [leastExponent]
    omega

/-- A double is a multiple of a power of two, or too small to have 53 bits above it. -/
theorem value_cases (y : Binary64) (e : Int) :
    (∃ k : Nat, y.value = k * 2 ^ e) ∨ leastExponent < e ∧ y.value < 2 ^ 52 * 2 ^ e := by
  rcases le_or_gt e y.exponent with he | he
  · left
    obtain ⟨d, hd⟩ := Int.eq_ofNat_of_zero_le (sub_nonneg.mpr he)
    refine ⟨y.significand * 2 ^ d, ?_⟩
    rw [value, Nat.cast_mul, Nat.cast_pow, Nat.cast_ofNat, mul_assoc, two_pow_mul_zpow, ← hd,
      sub_add_cancel]
  · right
    refine ⟨(leastExponent_le y).trans_lt he, ?_⟩
    have hm : (y.significand : ℚ) < 2 ^ 53 := by exact_mod_cast y.significand_lt
    calc y.value < 2 ^ 53 * 2 ^ y.exponent := mul_lt_mul_of_pos_right hm (two_zpow_pos _)
      _ = 2 ^ ((53 : Nat) + y.exponent) := two_pow_mul_zpow 53 _
      _ ≤ 2 ^ ((52 : Nat) + e) := zpow_le_zpow_right₀ one_le_two (by push_cast; omega)
      _ = 2 ^ 52 * 2 ^ e := (two_pow_mul_zpow 52 e).symm

/-! ### Rounding -/

theorem isNegative_zero (negative : Bool) : (zero negative).isNegative = negative := by
  cases negative <;> decide

theorem isNegative_infinity (negative : Bool) : (infinity negative).isNegative = negative := by
  cases negative <;> decide

/-- The double of a number of the given sign and size: the nearest one, of two that are as near the
one with an even significand, and infinity beyond all of them. -/
structure Rounds (negative : Bool) (v : ℚ) (x : Binary64) : Prop where
  sign : x.isNegative = negative
  overflow : overflowBound ≤ v → x = infinity negative
  finite : v < overflowBound → x.isFinite = true
  nearest : v < overflowBound → ∀ y : Binary64, y.isFinite = true → |x.value - v| ≤ |y.value - v|
  even : v < overflowBound → ∀ y : Binary64, y.isFinite = true → y.value ≠ x.value →
    |x.value - v| = |y.value - v| → Even x.significand

section

variable {num den : Nat}

/-- At the place of a ratio, a rounded multiple is nearer than all doubles that are no multiples. -/
theorem dist_lt_of_small {e : Int} (hden : 0 < den) (hplace : IsPlace num den e)
    (hleast : leastExponent < e) {y : Binary64} (hy : y.value < 2 ^ 52 * 2 ^ e) :
    |(roundedAt num den e : ℚ) * 2 ^ e - num / den| < |y.value - num / den| := by
  have hlow : (2 : ℚ) ^ 52 * 2 ^ e ≤ num / den :=
    hplace.normal.resolve_left hleast.ne'
  have hgrid := dist_le_of_grid (isNearest_roundedAt num hden e) (2 ^ 52)
  rw [Nat.cast_pow, Nat.cast_ofNat] at hgrid
  refine lt_of_le_of_lt hgrid ?_
  rw [abs_sub_comm, abs_of_nonneg (sub_nonneg.mpr hlow), abs_sub_comm,
    abs_of_nonneg (sub_nonneg.mpr (hy.le.trans hlow))]
  exact sub_lt_sub_left hy _

theorem carried_eq_infinity (negative : Bool) {m : Nat} {e : Int}
    (h : greatestExponent < e ∨ e = greatestExponent ∧ m = 2 ^ 53) :
    carried negative m e = infinity negative := by
  have hbits : 1 <<< 53 = 2 ^ 53 := by decide
  rw [carried, hbits]
  by_cases hcarry : m = 2 ^ 53
  · have hgt : e + 1 > greatestExponent := by omega
    simp only [if_pos hcarry, if_pos hgt]
  · have hgt : e > greatestExponent := by omega
    simp only [if_neg hcarry, if_pos hgt]

/-- A ratio half a unit beyond the greatest double, or more, is rounded to infinity. -/
theorem ofRatio_eq_infinity (negative : Bool) (hden : 0 < den)
    (h : overflowBound ≤ (num : ℚ) / den) : ofRatio negative num den = infinity negative := by
  have hbound : (0 : ℚ) < overflowBound := mul_pos (by norm_num) (two_zpow_pos _)
  have hnum : 0 < num := by
    rcases Nat.eq_zero_or_pos num with rfl | hpos
    · rw [Nat.cast_zero, zero_div] at h
      exact absurd h (not_le.mpr hbound)
    · exact hpos
  obtain ⟨e, hplace, heq⟩ := ofRatio_eq negative hnum hden
  have hge : greatestExponent ≤ e := by
    by_contra hlt
    have hle : (2 : ℚ) ^ (e + 1) ≤ 2 ^ greatestExponent :=
      zpow_le_zpow_right₀ one_le_two (by omega)
    rw [zpow_add_one₀ two_ne_zero] at hle
    have := hplace.lt
    rw [overflowBound] at h
    linarith [two_zpow_pos greatestExponent]
  rw [heq]
  apply carried_eq_infinity
  rcases hge.lt_or_eq with hgt | rfl
  · exact .inl hgt
  · -- at the greatest exponent only the even neighbour is left, which has one bit too many
    have hnearest := isNearest_roundedAt num hden greatestExponent
    have hlow : (2 : ℚ) ^ 53 - 1 / 2 ≤ num / den / 2 ^ greatestExponent := by
      rwa [le_div_iff₀ (two_zpow_pos _)]
    have hhigh : (num : ℚ) / den / 2 ^ greatestExponent < 2 ^ 53 := by
      rw [div_lt_iff₀ (two_zpow_pos _)]
      exact hplace.lt
    generalize roundedAt num den greatestExponent = m at hnearest
    generalize (num : ℚ) / den / 2 ^ greatestExponent = v at hnearest hlow hhigh
    obtain ⟨hnear, heven⟩ := hnearest
    obtain ⟨hnear₁, hnear₂⟩ := abs_le.mp hnear
    have hle : m < 2 ^ 53 + 1 := by
      have hcast : (m : ℚ) < 2 ^ 53 + 1 := by linarith
      exact_mod_cast hcast
    have hge : 2 ^ 53 ≤ m + 1 := by
      have hcast : (2 : ℚ) ^ 53 ≤ m + 1 := by linarith
      exact_mod_cast hcast
    refine .inr ⟨rfl, ?_⟩
    by_contra hne
    have hodd : m + 1 = 2 ^ 53 := by omega
    have hcast : (m : ℚ) + 1 = 2 ^ 53 := by exact_mod_cast hodd
    have htie : |(m : ℚ) - v| = 1 / 2 := by
      refine le_antisymm hnear ?_
      rw [abs_sub_comm, abs_of_nonneg (by linarith)]
      linarith
    obtain ⟨k, hk⟩ := heven htie
    omega

/-- The double of a ratio is the one that it is rounded to. -/
theorem rounds_ofRatio (negative : Bool) (hden : 0 < den) :
    Rounds negative ((num : ℚ) / den) (ofRatio negative num den) := by
  rcases le_or_gt overflowBound ((num : ℚ) / den) with hover | hfit
  · rw [ofRatio_eq_infinity negative hden hover]
    exact ⟨isNegative_infinity negative, fun _ => rfl, fun h => absurd h (not_lt.mpr hover),
      fun h => absurd h (not_lt.mpr hover), fun h => absurd h (not_lt.mpr hover)⟩
  rcases Nat.eq_zero_or_pos num with rfl | hnum
  · have hzero : ofRatio negative 0 den = zero negative := by simp [ofRatio]
    have hvalue : (zero negative).value = 0 := by
      have : (zero negative).significand = 0 := by cases negative <;> decide
      rw [value, this, Nat.cast_zero, zero_mul]
    have heven : Even (zero negative).significand := by cases negative <;> decide
    rw [hzero]
    refine ⟨isNegative_zero negative, fun h => absurd h (not_le.mpr hfit),
      fun _ => isFinite_zero negative, ?_, fun _ _ _ _ _ => heven⟩
    intro _ y _
    rw [hvalue, Nat.cast_zero, zero_div, sub_zero, abs_zero]
    exact abs_nonneg _
  · obtain ⟨e, m', e', hplace, hrange, heq, hvalue, heven⟩ :=
      ofRatio_eq_pack negative hnum hden hfit
    obtain ⟨hsign, hsignificand, -, hfinite⟩ := hrange.fields_pack negative
    have hnearest := isNearest_roundedAt num hden e
    rw [heq]
    have hpacked : (pack negative m' e').value = roundedAt num den e * 2 ^ e :=
      (hrange.pack negative).2.trans hvalue
    refine ⟨hsign, fun h => absurd h (not_le.mpr hfit), fun _ => hfinite, ?_, ?_⟩
    · intro _ y _
      rw [hpacked]
      rcases y.value_cases e with ⟨k, hk⟩ | ⟨hleast, hsmall⟩
      · rw [hk]
        exact dist_le_of_grid hnearest k
      · exact (dist_lt_of_small hden hplace hleast hsmall).le
    · intro _ y _ hne htie
      rw [hpacked] at hne htie
      rcases y.value_cases e with ⟨k, hk⟩ | ⟨hleast, hsmall⟩
      · rw [hk] at hne htie
        have hkm : k ≠ roundedAt num den e := by
          rintro rfl
          exact hne rfl
        rw [hsignificand]
        exact heven (even_of_grid hnearest hkm htie)
      · exact absurd htie (dist_lt_of_small hden hplace hleast hsmall).ne

end

/-! ### There is only one -/

theorem normal (x : Binary64) : x.exponent = leastExponent ∨ 2 ^ 52 ≤ x.significand := by
  have hone : 1 <<< 52 = 2 ^ 52 := by decide
  rw [exponent, significand, hone]
  split
  · exact .inl rfl
  · exact .inr (Nat.le_add_left _ _)

theorem exponent_le_of_value {x y : Binary64} (h : x.value = y.value) :
    y.exponent ≤ x.exponent := by
  by_contra hlt
  have hleast := leastExponent_le x
  have hm : (2 : ℚ) ^ 52 ≤ y.significand := by
    exact_mod_cast y.normal.resolve_left (by omega)
  have hx : (x.significand : ℚ) < 2 ^ 53 := by exact_mod_cast x.significand_lt
  have hlow : (2 : ℚ) ^ 53 * 2 ^ x.exponent ≤ 2 ^ 52 * 2 ^ y.exponent := by
    rw [two_pow_mul_zpow, two_pow_mul_zpow]
    exact zpow_le_zpow_right₀ one_le_two (by push_cast; omega)
  have hless : x.value < y.value :=
    calc x.value < 2 ^ 53 * 2 ^ x.exponent := mul_lt_mul_of_pos_right hx (two_zpow_pos _)
      _ ≤ 2 ^ 52 * 2 ^ y.exponent := hlow
      _ ≤ y.value := mul_le_mul_of_nonneg_right hm (two_zpow_pos _).le
  exact hless.ne h

/-- The value of a double tells its significand and its exponent. -/
theorem fields_of_value {x y : Binary64} (h : x.value = y.value) :
    x.significand = y.significand ∧ x.exponent = y.exponent := by
  have he : x.exponent = y.exponent :=
    le_antisymm (exponent_le_of_value h.symm) (exponent_le_of_value h)
  have hm : (x.significand : ℚ) = y.significand := by
    rw [value, value, he] at h
    exact mul_right_cancel₀ (two_zpow_pos _).ne' h
  exact ⟨by exact_mod_cast hm, he⟩

/-- A double is its sign and its value. -/
theorem eq_of_value {x y : Binary64} (hsign : x.isNegative = y.isNegative)
    (h : x.value = y.value) : x = y := by
  obtain ⟨hm, he⟩ := fields_of_value h
  obtain ⟨⟨a⟩⟩ := x
  obtain ⟨⟨b⟩⟩ := y
  have hone : 1 <<< 52 = 2 ^ 52 := by decide
  have ha := a.isLt
  have hb := b.isLt
  simp only [isNegative, significand, exponent, biased, fraction, leastExponent, hone,
    Nat.shiftRight_eq_div_pow, UInt64.toNat, decide_eq_decide] at hsign hm he
  -- only the significand tells whether the exponent field is zero
  have hbits : a.toNat = b.toNat := by
    by_cases hsmall : a.toNat / 2 ^ 52 % 2048 = 0
    · have hother : b.toNat / 2 ^ 52 % 2048 = 0 := by
        by_contra hlarge
        rw [if_pos hsmall, if_neg hlarge] at hm
        omega
      rw [if_pos hsmall, if_pos hother] at hm
      omega
    · have hother : ¬ b.toNat / 2 ^ 52 % 2048 = 0 := by
        intro hzero
        rw [if_neg hsmall, if_pos hzero] at hm
        omega
      rw [if_neg hsmall, if_neg hother] at hm he
      omega
  rw [BitVec.eq_of_toNat_eq hbits]

/-- Of two doubles between which a number is a tie, one has an odd significand. -/
theorem odd_of_tie {v : ℚ} {x y : Binary64} (hx : x.isFinite = true) (hlt : x.value < y.value)
    (hnearest : ∀ z : Binary64, z.isFinite = true → |x.value - v| ≤ |z.value - v|)
    (htie : |x.value - v| = |y.value - v|) (heven : Even x.significand) :
    ¬ Even y.significand := by
  have hm := x.significand_lt
  obtain ⟨r, hr⟩ := heven
  have hnormal := x.normal
  have hrange : InRange (x.significand + 1) x.exponent :=
    ⟨by omega, leastExponent_le x, exponent_le hx, by omega⟩
  obtain ⟨-, hsignificand, -, hfinite⟩ := hrange.fields_pack false
  have hnext : (pack false (x.significand + 1) x.exponent).value = x.value + 2 ^ x.exponent := by
    rw [(hrange.pack false).2, value, Nat.cast_add_one, add_mul, one_mul]
  generalize pack false (x.significand + 1) x.exponent = z at hsignificand hfinite hnext
  have hunit := two_zpow_pos x.exponent
  -- the number is halfway, so the double after the lower one cannot be before the upper one
  have hmid : v - x.value = y.value - v := by
    rcases abs_eq_abs.mp htie with heq | heq <;> linarith
  have hge : y.value ≤ z.value := by
    by_contra hbefore
    have hz := hnearest z hfinite
    rw [abs_sub_comm, abs_of_pos (by linarith), le_abs] at hz
    rcases hz with hz | hz <;> linarith
  have heq : y.value = z.value := by
    rcases y.value_cases x.exponent with ⟨k, hk⟩ | ⟨hleast, hsmall⟩
    · have hlow : x.significand < k := by
        rw [hk, value] at hlt
        exact_mod_cast lt_of_mul_lt_mul_right hlt hunit.le
      have hle : (x.significand + 1 : ℚ) ≤ k := by exact_mod_cast hlow
      refine le_antisymm hge ?_
      rw [hk, hnext, value, ← add_one_mul]
      exact mul_le_mul_of_nonneg_right hle hunit.le
    · have hbig : (2 : ℚ) ^ 52 ≤ x.significand := by
        exact_mod_cast hnormal.resolve_left hleast.ne'
      have := mul_le_mul_of_nonneg_right hbig hunit.le
      rw [← value] at this
      linarith
  rw [(fields_of_value heq).1, hsignificand]
  rintro ⟨s, hs⟩
  omega

/-- Rounding has one result. -/
theorem Rounds.unique {negative : Bool} {v : ℚ} {x y : Binary64} (hx : Rounds negative v x)
    (hy : Rounds negative v y) : x = y := by
  rcases le_or_gt overflowBound v with hover | hfit
  · rw [hx.overflow hover, hy.overflow hover]
  have hxf := hx.finite hfit
  have hyf := hy.finite hfit
  have htie : |x.value - v| = |y.value - v| :=
    le_antisymm (hx.nearest hfit y hyf) (hy.nearest hfit x hxf)
  refine eq_of_value (hx.sign.trans hy.sign.symm) ?_
  by_contra hne
  have hxe := hx.even hfit y hyf (Ne.symm hne) htie
  have hye := hy.even hfit x hxf hne htie.symm
  rcases lt_or_gt_of_ne hne with hlt | hlt
  · exact odd_of_tie hxf hlt (hx.nearest hfit) htie hxe hye
  · exact odd_of_tie hyf hlt (hy.nearest hfit) htie.symm hye hxe

end Binary64
end SourceAudit.Number
