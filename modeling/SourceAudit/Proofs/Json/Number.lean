import SourceAudit.Json.Token
import SourceAudit.Json.Writer
import SourceAudit.Proofs.Text.Run

/-!
Numbers in JSON texts. What is read of a number does not depend on the text after it, as long as
that text does not go on with a digit, a point or an exponent (`readNumber_append`), and the digits
of a word are read back as the word (`readNumber_toDigits`). Integers that are read fit into 64 bits.
-/

namespace SourceAudit.Json

open SourceAudit.Text (Stops dropWhile_append_stops takeWhile_append_stops)

/-- The text does not go on with a number. -/
def EndsNumber (rest : List Char) : Prop :=
  ∀ c ∈ rest.head?, isDigit c = false ∧ c ≠ '.' ∧ c ≠ 'e' ∧ c ≠ 'E'

theorem endsNumber_nil : EndsNumber [] := by simp [EndsNumber]

theorem endsNumber_cons {c : Char} (cs : List Char)
    (h : isDigit c = false ∧ c ≠ '.' ∧ c ≠ 'e' ∧ c ≠ 'E') : EndsNumber (c :: cs) := by
  simpa [EndsNumber] using h

theorem EndsNumber.stops {rest : List Char} (h : EndsNumber rest) : Stops isDigit rest :=
  fun c hc => (h c hc).1

/-- The integers of JSON values. -/
def FitsWord (n : Int) : Prop := -(1 <<< 63 : Nat) ≤ n ∧ n < wordLimit

/-! ### The text after a number -/

variable {rest : List Char}

theorem readWord_append (hr : EndsNumber rest) (n count : Nat) (cs : List Char) :
    readWord n count (cs ++ rest) =
      ((readWord n count cs).1, (readWord n count cs).2.1, (readWord n count cs).2.2 ++ rest) := by
  induction cs generalizing n count with
  | nil =>
    cases rest with
    | nil => rfl
    | cons c cs => simp [readWord, (hr c rfl).1]
  | cons c cs ih =>
    simp only [List.cons_append, readWord]
    split
    · split
      · exact ih _ _
      · rfl
    · rfl

theorem exponentSign_append {cs : List Char} (hc : cs ≠ []) :
    exponentSign (cs ++ rest) = ((exponentSign cs).1, (exponentSign cs).2 ++ rest) := by
  cases cs with
  | nil => exact absurd rfl hc
  | cons c cs => unfold exponentSign; split <;> simp_all

theorem readExponent_append (hr : EndsNumber rest) {negative : Bool} {n : Nat} {base : Int}
    {cs r : List Char} {x : Number.Binary64} (h : readExponent negative n base cs = some (x, r)) :
    readExponent negative n base (cs ++ rest) = some (x, r ++ rest) := by
  have hc : cs ≠ [] := by
    rintro rfl
    simp [readExponent, exponentSign] at h
  simp only [readExponent, exponentSign_append hc, takeWhile_append_stops hr.stops,
    dropWhile_append_stops hr.stops] at h ⊢
  split at h
  · cases h
  · cases h
    rename_i he
    simp [he]

theorem readScale_append (hr : EndsNumber rest) {negative : Bool} {n : Nat} {base : Int}
    {cs r : List Char} {x : Number.Binary64} (h : readScale negative n base cs = some (x, r)) :
    readScale negative n base (cs ++ rest) = some (x, r ++ rest) := by
  unfold readScale at h
  split at h
  · exact readExponent_append hr h
  · exact readExponent_append hr h
  · cases h
    cases cs with
    | nil =>
      cases rest with
      | nil => rfl
      | cons c cs =>
        obtain ⟨-, -, he, hE⟩ := hr c rfl
        simp [readScale, he, hE]
    | cons c cs => unfold readScale; split <;> simp_all

theorem readTail_append (hr : EndsNumber rest) {negative : Bool} {n : Nat} {base : Int}
    {cs r : List Char} {x : Number.Binary64} (h : readTail negative n base cs = some (x, r)) :
    readTail negative n base (cs ++ rest) = some (x, r ++ rest) := by
  unfold readTail at h
  split at h
  · simp only [List.cons_append, readTail, readWord_append hr,
      takeWhile_append_stops hr.stops, dropWhile_append_stops hr.stops] at h ⊢
    split at h
    · cases h
    · rename_i hd
      rw [if_neg hd]
      exact readScale_append hr h
  · rename_i hp
    have hs := readScale_append hr h
    cases cs with
    | nil =>
      cases rest with
      | nil => exact hs
      | cons c cs =>
        obtain ⟨-, hc, -, -⟩ := hr c rfl
        unfold readTail
        split <;> simp_all
    | cons c cs => unfold readTail; split <;> simp_all

theorem continuesDouble_append (hr : EndsNumber rest) (cs : List Char) :
    continuesDouble (cs ++ rest) = continuesDouble cs := by
  cases cs with
  | nil =>
    cases rest with
    | nil => rfl
    | cons c cs =>
      obtain ⟨-, hp, he, hE⟩ := hr c rfl
      simp [continuesDouble, hp, he, hE]
  | cons c cs => unfold continuesDouble; split <;> simp_all

/-- What is read of a number does not depend on the text after it. -/
theorem readNumber_append (hr : EndsNumber rest) {negative : Bool} {cs r : List Char} {t : Token}
    (h : readNumber negative cs = some (t, r)) :
    readNumber negative (cs ++ rest) = some (t, r ++ rest) := by
  cases cs with
  | nil => simp [readNumber] at h
  | cons c cs =>
    have hz : (cs ++ rest).head?.any isDigit = cs.head?.any isDigit := by
      cases cs with
      | nil =>
        cases rest with
        | nil => rfl
        | cons d ds => simp [(hr d rfl).1]
      | cons d ds => rfl
    have hw := readWord_append hr 0 0 (c :: cs)
    simp only [List.cons_append] at hw
    simp only [readNumber, List.cons_append, hz, hw, takeWhile_append_stops hr.stops,
      dropWhile_append_stops hr.stops, continuesDouble_append hr] at h ⊢
    split at h
    · cases h
    · split at h
      · cases h
      · rename_i hd hl
        rw [if_neg hd, if_neg hl]
        split at h
        · cases h
          rename_i hi
          rw [if_pos hi]
        · rename_i hi
          rw [if_neg hi]
          obtain ⟨⟨x, s⟩, hx, hxs⟩ := Option.map_eq_some_iff.mp h
          cases hxs
          rw [readTail_append hr hx]
          rfl

/-! ### Integers -/

theorem digitValue_lt {c : Char} (h : isDigit c = true) : digitValue c < 10 := by
  simp only [isDigit, Bool.and_eq_true, decide_eq_true_eq, Char.le_def, UInt32.le_iff_toNat_le] at h
  have hc : c.toNat ≤ 57 := h.2
  have hz : '0'.toNat = 48 := by decide
  rw [digitValue, hz]
  omega

theorem readWord_lt {n : Nat} (hn : n < wordLimit) (count : Nat) (cs : List Char) :
    (readWord n count cs).1 < wordLimit := by
  induction cs generalizing n count with
  | nil => exact hn
  | cons c cs ih =>
    unfold readWord
    split
    · split
      · rename_i hw
        exact ih hw _
      · exact hn
    · exact hn

theorem integerToken_fitsWord {negative : Bool} {n : Nat} {k : Int} (hn : n < wordLimit)
    (h : integerToken negative n = .int k) : FitsWord k := by
  simp only [FitsWord, wordLimit] at hn ⊢
  unfold integerToken at h
  split at h
  · cases h
    constructor <;> omega
  · split at h
    · cases h
    · rename_i hz
      cases h
      simp only [Bool.or_eq_true, decide_eq_true_eq, not_or] at hz
      constructor <;> omega

/-- An integer that is read fits into 64 bits. -/
theorem readNumber_fitsWord {negative : Bool} {cs r : List Char} {k : Int}
    (h : readNumber negative cs = some (.int k, r)) : FitsWord k := by
  cases cs with
  | nil => simp [readNumber] at h
  | cons c cs =>
    simp only [readNumber] at h
    split at h
    · cases h
    · split at h
      · cases h
      · split at h
        · rename_i hi
          have hk := (Prod.mk.inj (Option.some.inj h)).1
          exact integerToken_fitsWord (readWord_lt (by decide) _ _) hk
        · obtain ⟨⟨x, s⟩, hx, hxs⟩ := Option.map_eq_some_iff.mp h
          cases hxs

theorem isDigit_of_mem_toDigits {n : Nat} {c : Char} (h : c ∈ Nat.toDigits 10 n) :
    isDigit c = true :=
  Nat.isDigit_of_mem_toDigits (by decide) (by decide) h

/-- Digits are read to their end if their number fits. -/
theorem readWord_digits (hr : Stops isDigit rest) {ds : List Char} (hd : ∀ c ∈ ds, isDigit c = true)
    (n count : Nat) (hw : Nat.ofDigitChars 10 ds n < wordLimit) :
    readWord n count (ds ++ rest) = (Nat.ofDigitChars 10 ds n, count + ds.length, rest) := by
  induction ds generalizing n count with
  | nil =>
    cases rest with
    | nil => rfl
    | cons c cs => simp [readWord, hr c rfl]
  | cons d ds ih =>
    have hv : n * 10 + digitValue d = 10 * n + (d.toNat - '0'.toNat) := by
      rw [digitValue, Nat.mul_comm]
    rw [Nat.ofDigitChars_cons, ← hv] at hw
    -- a number does not shrink while digits are added to it
    have hle : n * 10 + digitValue d < wordLimit := by
      rw [Nat.ofDigitChars_eq_ofDigitChars_zero] at hw
      have hpos := Nat.mul_le_mul_right (n * 10 + digitValue d)
        (Nat.one_le_pow ds.length 10 (by decide))
      omega
    simp only [List.cons_append, readWord, hd d (by simp), ↓reduceIte, hle]
    rw [ih (fun c hc => hd c (by simp [hc])) _ _ hw, Nat.ofDigitChars_cons, hv]
    simp only [List.length_cons, Nat.add_assoc, Nat.add_comm 1]

/-- Only zero is written with a leading zero. -/
theorem toDigits_head_ne_zero {n : Nat} (hn : 0 < n) :
    (Nat.toDigits 10 n).head? ≠ some '0' := by
  induction n using Nat.strongRecOn with
  | ind n ih =>
    by_cases h : n < 10
    · rw [Nat.toDigits_of_lt_base h]
      have : ∀ m, m < 10 → 0 < m → [m.digitChar].head? ≠ some '0' := by decide
      exact this n h hn
    · rw [Nat.toDigits_of_base_le (by decide) (by omega)]
      have hq := ih (n / 10) (by omega) (by omega)
      cases hd : Nat.toDigits 10 (n / 10) with
      | nil => exact absurd hd Nat.toDigits_ne_nil
      | cons c cs => simpa [hd] using hq

/-- The digits of a word are read as that word. -/
theorem readNumber_toDigits (hr : EndsNumber rest) (negative : Bool) {n : Nat}
    (hn : n < wordLimit) :
    readNumber negative (Nat.toDigits 10 n ++ rest) = some (integerToken negative n, rest) := by
  have hd : ∀ c ∈ Nat.toDigits 10 n, isDigit c = true := fun c => isDigit_of_mem_toDigits
  have hw := readWord_digits hr.stops hd 0 0 (by rw [Nat.ofDigitChars_ten_toDigits]; exact hn)
  rw [Nat.ofDigitChars_ten_toDigits] at hw
  have htake : rest.takeWhile isDigit = [] := hr.stops.takeWhile_eq_nil
  have hcont : continuesDouble rest = false := continuesDouble_append hr []
  cases hds : Nat.toDigits 10 n with
  | nil => exact absurd hds Nat.toDigits_ne_nil
  | cons c cs =>
    have hzero : (c = '0' && (cs ++ rest).head?.any isDigit) = false := by
      rcases Nat.eq_zero_or_pos n with rfl | hpos
      · rw [Nat.toDigits_zero] at hds
        cases hds
        cases rest with
        | nil => rfl
        | cons e es => simp [(hr e rfl).1]
      · have hc := toDigits_head_ne_zero hpos
        simp only [hds, List.head?_cons, ne_eq, Option.some.injEq] at hc
        simp [hc]
    rw [hds, List.cons_append] at hw
    simp only [List.cons_append, readNumber, hd c (by simp [hds]), hzero, hw, htake, hcont]
    rfl

end SourceAudit.Json
