import SourceAudit.Proofs.Json.Number
import SourceAudit.Proofs.Number.Decimal

/-!
The texts of doubles. Reading one rounds twice, a word and then its product with a power of ten, so
it can give a neighbour of the double; but the double it gives is finite (`readToken_doubleText`):
there is room for the errors below the two greatest doubles, and these are read as the greatest one.
-/

namespace SourceAudit.Json

open SourceAudit.Text (Stops dropWhile_run stops_cons stops_nil takeWhile_run)

open SourceAudit.Number (Binary64 Decimal)
open SourceAudit.Number.Binary64 (overflowBound)

/-! ### Scaling a word -/

theorem overflowBound_eq : overflowBound = 18014398509481983 * 2 ^ 971 / 2 := by
  have hpow : (2 : ℚ) ^ Binary64.greatestExponent = 2 ^ 971 := zpow_natCast 2 971
  rw [overflowBound, hpow, mul_div_right_comm]
  congr 1
  norm_num

theorem ten_pow_lt_overflowBound : (10 : ℚ) ^ 308 < overflowBound := by
  have hnat : 10 ^ 308 * 2 < 18014398509481983 * 2 ^ 971 := by decide +kernel
  rw [overflowBound_eq, lt_div_iff₀ two_pos]
  exact_mod_cast hnat

theorem overflowBound_lt_ten_pow : overflowBound < (10 : ℚ) ^ 309 := by
  have hnat : 18014398509481983 * 2 ^ 971 < 10 ^ 309 * 2 := by decide +kernel
  rw [overflowBound_eq, div_lt_iff₀ two_pos]
  exact_mod_cast hnat

/-- The greatest relative error of a double that is nearest to an integer. -/
def roundingFactor : ℚ := 1 + 1 / 2 ^ 53

theorem powerOfTen_spec {k : Nat} (h : k ≤ 308) :
    1 ≤ (Binary64.powerOfTen k).value ∧
      (Binary64.powerOfTen k).value ≤ 10 ^ k * roundingFactor := by
  have hcast : ((10 ^ k : Nat) : ℚ) = 10 ^ k := by rw [Nat.cast_pow, Nat.cast_ofNat]
  have hlt : (10 : ℚ) ^ k < overflowBound :=
    lt_of_le_of_lt (pow_le_pow_right₀ (by norm_num) h) ten_pow_lt_overflowBound
  have hspec := Binary64.value_ofRatio_one false (Nat.pow_pos (by decide) : 0 < 10 ^ k)
    (by rwa [hcast])
  rw [hcast] at hspec
  exact hspec

/-- Dividing by powers of ten keeps a double finite. -/
theorem isFinite_divide (fuel : Nat) {x : Binary64} (hx : x.isFinite = true) (k : Nat) :
    (scaleWord.divide x k fuel).isFinite = true := by
  induction fuel generalizing x k with
  | zero => exact hx
  | succ fuel ih =>
    rw [scaleWord.divide]
    split
    · rename_i hk
      exact Binary64.isFinite_divAbs hx (powerOfTen_spec hk).1
    · split
      · exact hx
      · exact ih (Binary64.isFinite_divAbs hx (powerOfTen_spec le_rfl).1) _

theorem isFinite_word {n : Nat} (h : n < wordLimit) : (Binary64.ofInt n).isFinite = true := by
  apply Binary64.isFinite_ofInt
  simpa [wordLimit] using h

theorem value_word_le {n : Nat} (hpos : 0 < n) (h : n < wordLimit) :
    (Binary64.ofInt n).value ≤ n * roundingFactor := by
  have hword : (n : ℚ) < 2 ^ 64 := by
    have : n < 2 ^ 64 := h
    exact_mod_cast this
  exact (Binary64.value_ofRatio_one _ hpos
    (lt_trans hword Binary64.two_pow_lt_overflowBound)).2

theorem one_le_roundingFactor : 1 ≤ roundingFactor := by norm_num [roundingFactor]

/-- A word times a power of ten is finite, if there is room for the errors of its two factors. -/
theorem isFinite_scaleWord {n : Nat} {e : Int} (hn : n < wordLimit)
    (h : n * 10 ^ e * roundingFactor ^ 2 < overflowBound) : (scaleWord n e).isFinite = true := by
  unfold scaleWord
  extract_lets x
  split
  swap
  · exact isFinite_divide _ (isFinite_word hn) _
  rename_i he
  obtain ⟨k, rfl⟩ := Int.eq_ofNat_of_zero_le he
  rw [Int.toNat_natCast]
  rw [zpow_natCast] at h
  rcases Nat.eq_zero_or_pos n with rfl | hpos
  · have hx : x.value = 0 := by
      have hzero : x.significand = 0 := by decide
      rw [Binary64.value, hzero, Nat.cast_zero, zero_mul]
    split
    · apply Binary64.isFinite_mulAbs
      rw [hx, zero_mul]
      exact lt_trans (by norm_num) Binary64.two_pow_lt_overflowBound
    · rw [if_pos rfl]
      exact isFinite_word hn
  · have hten : (10 : ℚ) ^ k ≤ n * 10 ^ k * roundingFactor ^ 2 := by
      have hone : (1 : ℚ) ≤ n := by exact_mod_cast hpos
      calc (10 : ℚ) ^ k = 1 * 10 ^ k * 1 := by ring
        _ ≤ n * 10 ^ k * roundingFactor ^ 2 := by
          gcongr
          exact one_le_pow₀ one_le_roundingFactor
    have hk : k ≤ 308 := by
      have hlt := lt_trans (lt_of_le_of_lt hten h) overflowBound_lt_ten_pow
      have := (pow_lt_pow_iff_right₀ (by norm_num : (1 : ℚ) < 10)).mp hlt
      omega
    rw [if_pos hk]
    apply Binary64.isFinite_mulAbs
    have hfactor := one_le_roundingFactor
    calc x.value * (Binary64.powerOfTen k).value
        ≤ (n * roundingFactor) * (10 ^ k * roundingFactor) :=
          mul_le_mul (value_word_le hpos hn) (powerOfTen_spec hk).2 (Binary64.value_nonneg _)
            (by positivity)
      _ = n * 10 ^ k * roundingFactor ^ 2 := by ring
      _ < overflowBound := h

theorem isFinite_signed (negative : Bool) (x : Binary64) :
    (signed negative x).isFinite = x.isFinite := by
  unfold signed
  split
  · exact Binary64.isFinite_neg x
  · rfl

/-! ### Reading digits -/

/-- Digits are read into a word as far as they fit. -/
theorem readWord_split {F tail : List Char} (hF : ∀ c ∈ F, isDigit c = true)
    (htail : Stops isDigit tail) (n count : Nat) :
    ∃ front back, F = front ++ back ∧
      readWord n count (F ++ tail) =
        (Nat.ofDigitChars 10 front n, count + front.length, back ++ tail) := by
  induction F generalizing n count with
  | nil =>
    refine ⟨[], [], rfl, ?_⟩
    cases tail with
    | nil => rfl
    | cons c cs => simp [readWord, htail c rfl]
  | cons d F ih =>
    by_cases hw : n * 10 + digitValue d < wordLimit
    · obtain ⟨front, back, hsplit, hread⟩ :=
        ih (fun c hc => hF c (by simp [hc])) (n * 10 + digitValue d) (count + 1)
      refine ⟨d :: front, back, by rw [hsplit, List.cons_append], ?_⟩
      have hv : n * 10 + digitValue d = 10 * n + (d.toNat - '0'.toNat) := by
        rw [digitValue, Nat.mul_comm]
      rw [List.cons_append, readWord, hF d (by simp), if_pos rfl, if_pos hw, hread,
        Nat.ofDigitChars_cons, ← hv, List.length_cons]
      congr 2
      omega
    · refine ⟨[], d :: F, rfl, ?_⟩
      rw [List.cons_append, readWord, hF d (by simp), if_pos rfl, if_neg hw]
      rfl

/-- The number that integral digits and digits after the point stand for. -/
def positional (I F : List Char) : ℚ :=
  Nat.ofDigitChars 10 (I ++ F) 0 * 10 ^ (-(F.length : Int))

/-- A fraction of which the last digits are left out is not greater. -/
theorem positional_take_le (I front back : List Char) :
    positional I front ≤ positional I (front ++ back) := by
  have hnat : Nat.ofDigitChars 10 (I ++ front) 0 * 10 ^ back.length ≤
      Nat.ofDigitChars 10 (I ++ (front ++ back)) 0 := by
    rw [← List.append_assoc, Nat.ofDigitChars_append _ (l := I ++ front),
      Nat.ofDigitChars_eq_ofDigitChars_zero (l := back), Nat.mul_comm]
    exact Nat.le_add_right _ _
  have hcast : (Nat.ofDigitChars 10 (I ++ front) 0 * 10 ^ back.length : ℚ) ≤
      Nat.ofDigitChars 10 (I ++ (front ++ back)) 0 := by exact_mod_cast hnat
  unfold positional
  rw [List.length_append, Nat.cast_add, neg_add_rev, zpow_add₀ (by norm_num), ← mul_assoc]
  refine mul_le_mul_of_nonneg_right ?_ (by positivity)
  rw [zpow_neg, zpow_natCast, ← div_eq_mul_inv, le_div_iff₀ (by positivity)]
  exact hcast

section

variable {I F tail : List Char} (negative : Bool)

/-- The integral digits of a number: there is one, a zero stands only by itself, and they fit into a
word. -/
structure IsWhole (I : List Char) : Prop where
  nonempty : I ≠ []
  digits : ∀ c ∈ I, isDigit c = true
  zero : I.head? = some '0' → I.length = 1
  fits : Nat.ofDigitChars 10 I 0 < wordLimit

/-- A number with integral digits goes on after them. -/
theorem readNumber_whole (hI : IsWhole I) {rest : List Char} (hr : Stops isDigit rest)
    (hcont : continuesDouble rest = true) :
    readNumber negative (I ++ rest) =
      (readTail negative (Nat.ofDigitChars 10 I 0) 0 rest).map fun (x, r) => (.double x, r) := by
  have hword := readWord_digits hr hI.digits 0 0 hI.fits
  have htake : rest.takeWhile isDigit = [] := hr.takeWhile_eq_nil
  have hdrop : rest.dropWhile isDigit = rest := hr.dropWhile_eq_self
  obtain ⟨hne, hdigits, hzero, -⟩ := hI
  cases I with
  | nil => exact absurd rfl hne
  | cons c cs =>
    have hlead : (c = '0' && (cs ++ rest).head?.any isDigit) = false := by
      by_cases hc : c = '0'
      · have hcs : cs = [] := by simpa using hzero (by rw [hc]; rfl)
        subst hcs
        cases rest with
        | nil => simp
        | cons d ds => simp [hr d rfl]
      · simp [hc]
    rw [List.cons_append] at hword
    simp only [List.cons_append, readNumber, hdigits c (by simp), hlead, hword, htake, hdrop, hcont]
    rfl

/-- What is read of digits with a point among them, up to the exponent: a word and its scale, which
together are not greater than what is written. -/
theorem readNumber_point (hI : IsWhole I) (hne : F ≠ []) (hF : ∀ c ∈ F, isDigit c = true)
    (htail : Stops isDigit tail) :
    ∃ m count : Nat, m < wordLimit ∧ m * 10 ^ (-(count : Int)) ≤ positional I F ∧
      readNumber negative (I ++ '.' :: (F ++ tail)) =
        (readScale negative m (-(count : Int)) tail).map fun (x, r) => (.double x, r) := by
  obtain ⟨front, back, rfl, hread⟩ := readWord_split hF htail (Nat.ofDigitChars 10 I 0) 0
  have hback : ∀ c ∈ back, isDigit c = true := fun c hc => hF c (by simp [hc])
  have hlt := readWord_lt hI.fits 0 (front ++ back ++ tail)
  rw [hread] at hlt
  refine ⟨_, front.length, hlt, ?_, ?_⟩
  · rw [← Nat.ofDigitChars_append]
    exact positional_take_le I front back
  · have hsome : (decide (front.length = 0) && back.isEmpty) = false := by
      cases front with
      | nil =>
        rw [List.nil_append] at hne
        simp [hne]
      | cons c cs => simp
    rw [readNumber_whole negative hI (stops_cons (by decide) _) rfl]
    simp only [readTail, hread, takeWhile_run hback htail, dropWhile_run hback htail,
      Nat.zero_add, Int.zero_sub, hsome]
    rfl

/-- A written exponent is read back. -/
theorem readScale_exponent (n : Nat) (base P : Int) :
    readScale negative n base ('e' :: exponentText P) =
      some (scaleBy negative n base (decide (P < 0)) P.natAbs, []) := by
  have hsign : exponentSign (exponentText P) = (decide (P < 0), Nat.toDigits 10 P.natAbs) := by
    unfold exponentText
    by_cases h : P < 0 <;> simp [h, exponentSign]
  have hdigits : ∀ c ∈ Nat.toDigits 10 P.natAbs, isDigit c = true :=
    fun c => isDigit_of_mem_toDigits
  have htake := takeWhile_run hdigits stops_nil
  have hdrop := dropWhile_run hdigits stops_nil
  rw [List.append_nil] at htake hdrop
  have hvalue : (Nat.toDigits 10 P.natAbs).foldl (fun e c => e * 10 + digitValue c) 0 =
      P.natAbs := by
    have hfold := Nat.ofDigitChars_ten_toDigits (n := P.natAbs)
    rw [Nat.ofDigitChars_eq_foldl] at hfold
    simpa only [digitValue, Nat.mul_comm 10] using hfold
  have hne : (Nat.toDigits 10 P.natAbs).isEmpty = false := by
    simp [Nat.toDigits_ne_nil]
  simp only [readScale, readExponent, hsign, htake, hdrop, hvalue, hne]
  rfl

theorem isFinite_scaleBy {n : Nat} {base P : Int} (hn : n < wordLimit) (hP : P < exponentLimit)
    (h : n * 10 ^ (base + P) * roundingFactor ^ 2 < overflowBound) :
    (scaleBy negative n base (decide (P < 0)) P.natAbs).isFinite = true := by
  unfold scaleBy
  split
  · have hneg : P < 0 := by omega
    simp [hneg, Binary64.isFinite_zero]
  · have hsum : (if decide (P < 0) = true then base - P.natAbs else base + P.natAbs) = base + P := by
      by_cases hneg : P < 0
      · rw [if_pos (decide_eq_true hneg)]
        omega
      · rw [if_neg (by simpa using hneg)]
        omega
    rw [isFinite_signed, hsum]
    exact isFinite_scaleWord hn h

theorem readNumber_positional (hI : IsWhole I) (hne : F ≠ []) (hF : ∀ c ∈ F, isDigit c = true)
    (h : positional I F * roundingFactor ^ 2 < overflowBound) :
    ∃ y : Binary64, y.isFinite = true ∧
      readNumber negative (I ++ '.' :: F) = some (.double y, []) := by
  obtain ⟨m, count, hm, hle, hread⟩ :=
    readNumber_point negative hI hne hF stops_nil
  rw [List.append_nil] at hread
  refine ⟨signed negative (scaleWord m (-(count : Int))), ?_, hread⟩
  rw [isFinite_signed]
  refine isFinite_scaleWord hm (lt_of_le_of_lt ?_ h)
  exact mul_le_mul_of_nonneg_right hle (by positivity)

theorem readNumber_scientific (hI : IsWhole I) (hne : F ≠ []) (hF : ∀ c ∈ F, isDigit c = true)
    {P : Int} (hP : P < exponentLimit)
    (h : positional I F * 10 ^ P * roundingFactor ^ 2 < overflowBound) :
    ∃ y : Binary64, y.isFinite = true ∧
      readNumber negative (I ++ '.' :: (F ++ 'e' :: exponentText P)) = some (.double y, []) := by
  obtain ⟨m, count, hm, hle, hread⟩ := readNumber_point negative hI hne hF
    (stops_cons (by decide : isDigit 'e' = false) (exponentText P))
  rw [readScale_exponent] at hread
  refine ⟨_, isFinite_scaleBy negative hm hP (lt_of_le_of_lt ?_ h), hread⟩
  rw [zpow_add₀ (by norm_num), ← mul_assoc]
  exact mul_le_mul_of_nonneg_right (mul_le_mul_of_nonneg_right hle (by positivity)) (by positivity)

theorem readNumber_wholeScientific (hI : IsWhole I) {P : Int} (hP : P < exponentLimit)
    (h : Nat.ofDigitChars 10 I 0 * 10 ^ P * roundingFactor ^ 2 < overflowBound) :
    ∃ y : Binary64, y.isFinite = true ∧
      readNumber negative (I ++ 'e' :: exponentText P) = some (.double y, []) := by
  have hread := readNumber_whole negative hI
    (stops_cons (by decide : isDigit 'e' = false) (exponentText P)) rfl
  rw [readTail, readScale_exponent] at hread
  · exact ⟨_, isFinite_scaleBy negative hI.fits hP (by rwa [Int.zero_add]), hread⟩
  · simp

end

/-! ### The text of a decimal -/

/-- Digits with a point after the first of them, and an exponent. -/
def scientificText (exponent : List Char) : List Char → List Char
  | [c] => c :: 'e' :: exponent
  | c :: cs => c :: '.' :: (cs ++ 'e' :: exponent)
  | [] => []

/-- A decimal, as a double of it is written. -/
def decimalText (d : Decimal) : List Char :=
  let ds := Nat.toDigits 10 d.digits
  let point : Int := ds.length + d.exponent
  if d.digits = 0 then ['0', '.', '0']
  else if 0 ≤ d.exponent ∧ point ≤ 16 then ds ++ zeros d.exponent.toNat ++ ['.', '0']
  else if 0 < point ∧ point ≤ 16 then ds.take point.toNat ++ '.' :: ds.drop point.toNat
  else if -5 < point ∧ point ≤ 0 then '0' :: '.' :: (zeros (-point).toNat ++ ds)
  else scientificText (exponentText (point - 1)) ds

theorem doubleText_eq (x : Binary64) :
    doubleText x = (if x.isNegative then ['-'] else []) ++ decimalText x.shortest := rfl

theorem ofDigitChars_lt {ds : List Char} (h : ∀ c ∈ ds, isDigit c = true) :
    Nat.ofDigitChars 10 ds 0 < 10 ^ ds.length := by
  induction ds with
  | nil => simp
  | cons d ds ih =>
    have hd : d.toNat - '0'.toNat < 10 := digitValue_lt (h d (by simp))
    have hds := ih fun c hc => h c (by simp [hc])
    rw [Nat.ofDigitChars_cons, Nat.ofDigitChars_eq_ofDigitChars_zero, List.length_cons, Nat.pow_succ]
    have hle := Nat.mul_le_mul_left (10 ^ ds.length) (show 10 * 0 + (d.toNat - '0'.toNat) ≤ 9 by omega)
    omega

/-- Up to 16 digits fit into a word. -/
theorem isWhole_of_length_le {I : List Char} (hne : I ≠ []) (hI : ∀ c ∈ I, isDigit c = true)
    (hzero : I.head? ≠ some '0') (hlen : I.length ≤ 16) : IsWhole I := by
  refine ⟨hne, hI, fun h => absurd h hzero, ?_⟩
  calc Nat.ofDigitChars 10 I 0 < 10 ^ I.length := ofDigitChars_lt hI
    _ ≤ 10 ^ 16 := Nat.pow_le_pow_right (by decide) hlen
    _ < wordLimit := by decide

theorem isWhole_singleton {c : Char} (h : isDigit c = true) : IsWhole [c] := by
  refine ⟨by simp, by simpa using h, fun _ => rfl, ?_⟩
  calc Nat.ofDigitChars 10 [c] 0 < 10 ^ 1 := ofDigitChars_lt (by simpa using h)
    _ < wordLimit := by decide

theorem isDigit_of_mem_zeros {k : Nat} {c : Char} (h : c ∈ zeros k) : isDigit c = true := by
  rw [List.eq_of_mem_replicate h]
  decide

/-- A number of so many digits is at least the power of ten with one digit less. -/
theorem ten_pow_le_of_digits {n : Nat} (hn : 0 < n) :
    10 ^ ((Nat.toDigits 10 n).length - 1) ≤ n := by
  by_contra hlt
  rw [Nat.not_le] at hlt
  by_cases hk : (Nat.toDigits 10 n).length - 1 = 0
  · rw [hk] at hlt
    omega
  · have hle := (Nat.length_toDigits_le_iff (by decide) (by omega)).mpr hlt
    omega

theorem positional_mul_eq {I F : List Char} {d : Decimal} {k : Nat} {P : Int}
    (hdigits : Nat.ofDigitChars 10 (I ++ F) 0 = 10 ^ k * d.digits)
    (hexponent : d.exponent = k - F.length + P) : positional I F * 10 ^ P = d.value := by
  have hten : (10 : ℚ) ≠ 0 := by norm_num
  rw [positional, hdigits, Decimal.value, hexponent, zpow_add₀ hten, zpow_sub₀ hten, zpow_neg,
    zpow_natCast, zpow_natCast]
  push_cast
  ring

theorem positional_eq {I F : List Char} {d : Decimal} {k : Nat}
    (hdigits : Nat.ofDigitChars 10 (I ++ F) 0 = 10 ^ k * d.digits)
    (hexponent : d.exponent = k - F.length) : positional I F = d.value := by
  have h := positional_mul_eq (P := 0) hdigits (by omega)
  rwa [zpow_zero, mul_one] at h

/-- The exponent that is written for a decimal is not too large to be read. -/
theorem exponent_lt_of_value_lt {d : Decimal} (hpos : 0 < d.digits) (h : d.value < overflowBound) :
    ((Nat.toDigits 10 d.digits).length : Int) + d.exponent - 1 < exponentLimit := by
  have hlen : 0 < (Nat.toDigits 10 d.digits).length := Nat.length_toDigits_pos
  have hten : (10 : ℚ) ≠ 0 := by norm_num
  have hle : (10 : ℚ) ^ (((Nat.toDigits 10 d.digits).length : Int) + d.exponent - 1) ≤ d.value := by
    have hnat : ((10 ^ ((Nat.toDigits 10 d.digits).length - 1) : Nat) : ℚ) ≤ d.digits := by
      exact_mod_cast ten_pow_le_of_digits hpos
    calc (10 : ℚ) ^ (((Nat.toDigits 10 d.digits).length : Int) + d.exponent - 1)
        = ((10 ^ ((Nat.toDigits 10 d.digits).length - 1) : Nat) : ℚ) * 10 ^ d.exponent := by
          rw [Nat.cast_pow, Nat.cast_ofNat, ← zpow_natCast, ← zpow_add₀ hten]
          congr 1
          omega
      _ ≤ d.value := mul_le_mul_of_nonneg_right hnat (by positivity)
  have hlt := lt_trans (lt_of_le_of_lt hle h) overflowBound_lt_ten_pow
  rw [← zpow_natCast, zpow_lt_zpow_iff_right₀ (by norm_num)] at hlt
  have hlimit : (309 : Int) < exponentLimit := by decide
  omega

/-- The digits of a decimal that is not zero. -/
structure HasDigits (d : Decimal) (ds : List Char) : Prop where
  nonempty : ds ≠ []
  digits : ∀ c ∈ ds, isDigit c = true
  head : ds.head? ≠ some '0'
  value : Nat.ofDigitChars 10 ds 0 = d.digits

theorem hasDigits_toDigits {d : Decimal} (h : 0 < d.digits) :
    HasDigits d (Nat.toDigits 10 d.digits) :=
  ⟨Nat.toDigits_ne_nil, fun _ => isDigit_of_mem_toDigits, toDigits_head_ne_zero h,
    Nat.ofDigitChars_ten_toDigits⟩

-- One lemma for each form of a decimal: there is room for the errors of reading it.
section

variable (negative : Bool) {d : Decimal} {ds : List Char} (hds : HasDigits d ds)
  (h : d.value * roundingFactor ^ 2 < overflowBound)

include hds h

/-- With zeros after the digits. -/
theorem readNumber_integral (hexponent : 0 ≤ d.exponent) (hpoint : ds.length + d.exponent ≤ 16) :
    ∃ y : Binary64, y.isFinite = true ∧
      readNumber negative (ds ++ zeros d.exponent.toNat ++ ['.', '0']) = some (.double y, []) := by
  have hlen : (zeros d.exponent.toNat).length = d.exponent.toNat := List.length_replicate
  apply readNumber_positional negative (F := ['0'])
  · apply isWhole_of_length_le
    · simp [hds.nonempty]
    · exact List.forall_mem_append.mpr ⟨hds.digits, fun c => isDigit_of_mem_zeros⟩
    · rw [List.head?_append_of_ne_nil _ hds.nonempty]
      exact hds.head
    · rw [List.length_append, hlen]
      omega
  · simp
  · exact List.forall_mem_singleton.mpr rfl
  · rwa [positional_eq (d := d) (k := d.exponent.toNat + 1)]
    · have hone : ['0'] = zeros 1 := rfl
      rw [hone, List.append_assoc, zeros, zeros, List.replicate_append_replicate,
        Nat.ofDigitChars_append, Nat.ofDigitChars_replicate_zero, hds.value]
    · simp only [List.length_singleton]
      omega

/-- With the point among the digits. -/
theorem readNumber_inner {p : Nat} (hp : 0 < p) (hlt : p < ds.length) (hle : p ≤ 16)
    (hpoint : d.exponent = p - ds.length) :
    ∃ y : Binary64, y.isFinite = true ∧
      readNumber negative (ds.take p ++ '.' :: ds.drop p) = some (.double y, []) := by
  apply readNumber_positional negative
  · apply isWhole_of_length_le
    · simp [hds.nonempty, hp.ne']
    · exact fun c hc => hds.digits c (List.mem_of_mem_take hc)
    · rw [List.head?_take, if_neg hp.ne']
      exact hds.head
    · rw [List.length_take]
      omega
  · intro hnil
    have hlen := congrArg List.length hnil
    rw [List.length_drop, List.length_nil] at hlen
    omega
  · exact fun c hc => hds.digits c (List.mem_of_mem_drop hc)
  · rwa [positional_eq (d := d) (k := 0)]
    · rw [List.take_append_drop, hds.value, Nat.pow_zero, Nat.one_mul]
    · rw [List.length_drop]
      omega

/-- With zeros between the point and the digits. -/
theorem readNumber_small {k : Nat} (hpoint : d.exponent = -(k : Int) - ds.length) :
    ∃ y : Binary64, y.isFinite = true ∧
      readNumber negative ('0' :: '.' :: (zeros k ++ ds)) = some (.double y, []) := by
  apply readNumber_positional negative (I := ['0']) (isWhole_singleton (by decide))
  · simp [hds.nonempty]
  · exact List.forall_mem_append.mpr ⟨fun c => isDigit_of_mem_zeros, hds.digits⟩
  · rwa [positional_eq (d := d) (k := 0)]
    · have hone : ['0'] = zeros 1 := rfl
      rw [hone, ← List.append_assoc, zeros, zeros, List.replicate_append_replicate,
        Nat.ofDigitChars_append, Nat.ofDigitChars_replicate_zero, Nat.mul_zero, hds.value,
        Nat.pow_zero, Nat.one_mul]
    · simp only [List.length_append, zeros, List.length_replicate]
      omega

/-- With an exponent. -/
theorem readNumber_exponential {P : Int} (hP : P < exponentLimit)
    (hpoint : d.exponent = P + 1 - ds.length) :
    ∃ y : Binary64, y.isFinite = true ∧
      readNumber negative (scientificText (exponentText P) ds) = some (.double y, []) := by
  obtain ⟨hne, hdigits, -, hvalue⟩ := hds
  cases ds with
  | nil => exact absurd rfl hne
  | cons c cs =>
    have hc : isDigit c = true := hdigits c (by simp)
    cases cs with
    | nil =>
      apply readNumber_wholeScientific negative (I := [c]) (isWhole_singleton hc) hP
      have hexponent : P = d.exponent := by
        rw [List.length_singleton] at hpoint
        omega
      rwa [hvalue, hexponent]
    | cons e es =>
      apply readNumber_scientific negative (I := [c]) (isWhole_singleton hc) (by simp)
        (fun b hb => hdigits b (List.mem_cons_of_mem _ hb)) hP
      rwa [positional_mul_eq (d := d) (k := 0)]
      · rw [List.singleton_append, hvalue, Nat.pow_zero, Nat.one_mul]
      · simp only [List.length_cons] at hpoint ⊢
        omega

end

/-- The text of a decimal is read as a finite double, if there is room for the errors of reading. -/
theorem readNumber_decimalText (negative : Bool) {d : Decimal}
    (h : d.value * roundingFactor ^ 2 < overflowBound) :
    ∃ y : Binary64, y.isFinite = true ∧
      readNumber negative (decimalText d) = some (.double y, []) := by
  unfold decimalText
  by_cases hzero : d.digits = 0
  · have hpositional : positional ['0'] ['0'] = d.value := by
      have hdigits : Nat.ofDigitChars 10 (['0'] ++ ['0']) 0 = 0 := by decide
      rw [Decimal.value, hzero, positional, hdigits, Nat.cast_zero, zero_mul, zero_mul]
    rw [if_pos hzero]
    exact readNumber_positional negative (I := ['0']) (isWhole_singleton (by decide)) (by simp)
      (List.forall_mem_singleton.mpr rfl) (by rwa [hpositional])
  have hpos := Nat.pos_of_ne_zero hzero
  have hds := hasDigits_toDigits hpos
  have hlt : d.value < overflowBound := by
    refine lt_of_le_of_lt (le_mul_of_one_le_right ?_ (one_le_pow₀ one_le_roundingFactor)) h
    exact mul_nonneg (Nat.cast_nonneg _) (by positivity)
  have hlimit := exponent_lt_of_value_lt hpos hlt
  rw [if_neg hzero]
  generalize Nat.toDigits 10 d.digits = ds at hds hlimit ⊢
  split
  · rename_i hform
    exact readNumber_integral negative hds h hform.1 hform.2
  split
  · exact readNumber_inner negative hds h (by omega) (by omega) (by omega) (by omega)
  split
  · exact readNumber_small negative hds h (by omega)
  · exact readNumber_exponential negative hds h hlimit (by omega)

/-! ### The text of a double -/

/-- The bits of the two greatest doubles of either sign. -/
def greatestBits : List UInt64 :=
  [0x7FEFFFFFFFFFFFFF, 0x7FEFFFFFFFFFFFFE, 0xFFEFFFFFFFFFFFFF, 0xFFEFFFFFFFFFFFFE]

/-- They are read as the greatest double. -/
theorem readNumber_greatest {bits : UInt64} (h : bits ∈ greatestBits) (negative : Bool) :
    readNumber negative (decimalText (Binary64.shortest ⟨bits⟩)) =
      some (.double (signed negative ⟨0x7FEFFFFFFFFFFFFF⟩), []) := by
  simp only [greatestBits, List.mem_cons, List.not_mem_nil, or_false] at h
  rcases h with rfl | rfl | rfl | rfl <;> cases negative <;> decide +kernel

theorem mem_greatest {x : Binary64} (he : x.exponent = 971) (hm : 2 ^ 53 - 2 ≤ x.significand) :
    x.bits ∈ greatestBits := by
  have hone : 1 <<< 52 = 2 ^ 52 := by decide
  have hbits := x.bits.toNat_lt
  have hbiased : x.biased = 2046 := by
    simp only [Binary64.exponent, Binary64.leastExponent] at he
    split at he <;> omega
  rw [Binary64.significand, hbiased, if_neg (by decide), hone, Binary64.fraction, hone] at hm
  rw [Binary64.biased, Nat.shiftRight_eq_div_pow] at hbiased
  simp only [greatestBits, List.mem_cons, ← UInt64.toNat_inj, List.not_mem_nil, or_false,
    UInt64.reduceToNat]
  omega

/-- There is room for the errors of reading below the two greatest doubles. -/
theorem shortest_lt {x : Binary64} (hx : x.isFinite = true)
    (h : ¬ (x.exponent = 971 ∧ 2 ^ 53 - 2 ≤ x.significand)) :
    x.shortest.value * roundingFactor ^ 2 < overflowBound := by
  have hexponent : x.exponent ≤ 971 := Binary64.exponent_le hx
  have hsignificand := x.significand_lt
  have hpos : (0 : ℚ) < 2 ^ Binary64.greatestExponent := Binary64.two_zpow_pos _
  have hfactor := one_le_roundingFactor
  refine lt_of_le_of_lt (mul_le_mul_of_nonneg_right x.shortest_le (by positivity)) ?_
  rw [overflowBound]
  by_cases he : x.exponent = 971
  · have hm : (x.significand : ℚ) ≤ 2 ^ 53 - 3 := by
      have : x.significand + 3 ≤ 2 ^ 53 := by omega
      rw [le_sub_iff_add_le]
      exact_mod_cast this
    have hroom : (x.significand + 1 / 2) * roundingFactor ^ 2 < 2 ^ 53 - 1 / 2 := by
      refine lt_of_le_of_lt (mul_le_mul_of_nonneg_right (add_le_add_left hm _) (by positivity)) ?_
      norm_num [roundingFactor]
    rw [he, mul_right_comm]
    exact mul_lt_mul_of_pos_right hroom hpos
  · have hm : (x.significand : ℚ) ≤ 2 ^ 53 - 1 := by
      rw [le_sub_iff_add_le]
      exact_mod_cast hsignificand
    have hhalf : (2 : ℚ) ^ x.exponent ≤ 2 ^ Binary64.greatestExponent / 2 := by
      rw [div_eq_mul_inv, ← zpow_sub_one₀ two_ne_zero]
      exact zpow_le_zpow_right₀ one_le_two (by simp only [Binary64.greatestExponent]; omega)
    calc (x.significand + 1 / 2) * 2 ^ x.exponent * roundingFactor ^ 2
        ≤ (2 ^ 53 - 1 / 2) * (2 ^ Binary64.greatestExponent / 2) * roundingFactor ^ 2 := by
          refine mul_le_mul_of_nonneg_right ?_ (by positivity)
          exact mul_le_mul (by linarith) hhalf (Binary64.two_zpow_pos _).le (by norm_num)
      _ = (2 ^ 53 - 1 / 2) * roundingFactor ^ 2 / 2 * 2 ^ Binary64.greatestExponent := by ring
      _ < (2 ^ 53 - 1 / 2) * 2 ^ Binary64.greatestExponent :=
          mul_lt_mul_of_pos_right (by norm_num [roundingFactor]) hpos

theorem readToken_digit {c : Char} (h : isDigit c = true) (cs : List Char) :
    readToken c cs = readNumber false (c :: cs) := by
  have hquote : c ≠ '"' := by
    rintro rfl
    exact absurd h (by decide)
  have hminus : c ≠ '-' := by
    rintro rfl
    exact absurd h (by decide)
  rw [readToken, if_neg hquote, if_neg hminus, if_pos h]

theorem readToken_minus (cs : List Char) : readToken '-' cs = readNumber true cs := by
  simp [readToken]

theorem readNumber_head {negative : Bool} {cs : List Char} {p : Token × List Char}
    (h : readNumber negative cs = some p) : ∃ c rest, cs = c :: rest ∧ isDigit c = true := by
  cases cs with
  | nil => cases h
  | cons c rest =>
    refine ⟨c, rest, rfl, ?_⟩
    by_contra hc
    simp [readNumber, hc] at h

/-- The text of a finite double is one number, which is read as a finite double. -/
theorem readToken_doubleText {x : Binary64} (hx : x.isFinite = true) :
    ∃ (y : Binary64) (c : Char) (cs : List Char), y.isFinite = true ∧ doubleText x = c :: cs ∧
      (c = '-' ∨ isDigit c = true) ∧ readToken c cs = some (.double y, []) := by
  have hread : ∃ y : Binary64, y.isFinite = true ∧
      readNumber x.isNegative (decimalText x.shortest) = some (.double y, []) := by
    by_cases hgreat : x.exponent = 971 ∧ 2 ^ 53 - 2 ≤ x.significand
    · refine ⟨_, ?_, readNumber_greatest (mem_greatest hgreat.1 hgreat.2) x.isNegative⟩
      rw [isFinite_signed]
      decide
    · exact readNumber_decimalText x.isNegative (shortest_lt hx hgreat)
  obtain ⟨y, hy, hread⟩ := hread
  obtain ⟨c, cs, hcs, hc⟩ := readNumber_head hread
  rw [doubleText_eq, hcs]
  rw [hcs] at hread
  cases hsign : x.isNegative with
  | true =>
    rw [hsign] at hread
    exact ⟨y, '-', c :: cs, hy, rfl, .inl rfl, (readToken_minus _).trans hread⟩
  | false =>
    rw [hsign] at hread
    exact ⟨y, c, cs, hy, rfl, .inr hc, (readToken_digit hc _).trans hread⟩

end SourceAudit.Json
