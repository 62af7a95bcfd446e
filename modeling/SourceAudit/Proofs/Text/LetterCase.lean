import SourceAudit.Text.LetterCase

/-!
Lower case and ASCII. In the lower case of a text, each character of ASCII shows as its small letter,
and a character outside ASCII as one outside ASCII, two characters apart: the dotted capital I and the
Kelvin sign show as letters of ASCII (`lowersTo_lowerIn`, `ascii_mem_lowerForm`).
-/

namespace SourceAudit.Text

/-- Texts that differ at most in the case of letters of ASCII. -/
def SameLetters (cs ds : List Char) : Prop := cs.map Char.toLower = ds.map Char.toLower

instance (cs ds : List Char) : Decidable (SameLetters cs ds) :=
  inferInstanceAs (Decidable (_ = _))

theorem toNat_toLower (c : Char) :
    c.toLower.toNat = if 65 ≤ c.toNat ∧ c.toNat ≤ 90 then c.toNat + 32 else c.toNat := by
  unfold Char.toLower
  split
  · rename_i h
    have hcapital : 65 ≤ c.toNat ∧ c.toNat ≤ 90 := h
    have hshift : ('a'.val - 'A'.val).toNat = 32 := rfl
    have hsum : (c.val + ('a'.val - 'A'.val)).toNat = c.toNat + 32 := by
      have hcode : c.val.toNat = c.toNat := rfl
      rw [UInt32.toNat_add, hshift, hcode]
      omega
    rw [if_pos hcapital]
    exact hsum
  · rename_i h
    have hother : ¬ (65 ≤ c.toNat ∧ c.toNat ≤ 90) := h
    rw [if_neg hother]

theorem toLower_eq_self {c : Char} (h : 128 ≤ c.toNat) : c.toLower = c := by
  rw [← Char.toNat_inj, toNat_toLower, if_neg (by omega)]

/-- What a character can show as in the lower case of a text. -/
inductive LowersTo : Char → List Char → Prop where
  | ascii {c : Char} : c.toNat < 128 → LowersTo c [c.toLower]
  | dotted : LowersTo '\u0130' ['i', '\u0307']
  | kelvin : LowersTo '\u212a' ['k']
  | foreign {c d : Char} : 128 ≤ c.toNat → 128 ≤ d.toNat → LowersTo c [d]

/-- The small letters stay clear of the surrogates, and only that of the Kelvin sign is in ASCII. -/
theorem capitals_spec : ∀ r ∈ capitals,
    (r = ⟨0x212A, 0x212A, 1, 0x6B⟩ ∨ 128 ≤ r.small) ∧
      (r.small + (r.last - r.first)).isValidChar ∧
      (r.small + (r.last - r.first) < 0xD800 ∨ 0xDFFF < r.small) := by
  decide +kernel

theorem Capitals.toNat_small {r : Capitals} (hr : r ∈ capitals) {n : Nat} (hn : r.has n = true) :
    (Char.ofNat (r.small + (n - r.first))).toNat = r.small + (n - r.first) := by
  obtain ⟨-, hvalid, hclear⟩ := capitals_spec r hr
  simp only [has, Bool.and_eq_true, decide_eq_true_eq] at hn
  have hchar : (r.small + (n - r.first)).isValidChar := by
    unfold Nat.isValidChar at hvalid ⊢
    omega
  rw [Char.ofNat, dif_pos hchar]
  rfl

theorem lowersTo_lowerForm (c : Char) : LowersTo c (lowerForm c) := by
  unfold lowerForm
  split
  · rename_i hascii
    exact .ascii hascii
  rename_i hascii
  split
  · rename_i hdotted
    rw [hdotted]
    exact .dotted
  split
  · rename_i r hfind
    have hr := List.mem_of_find?_eq_some hfind
    have hhas := List.find?_some hfind
    rcases (capitals_spec r hr).1 with rfl | hsmall
    · simp only [Capitals.has, Bool.and_eq_true, decide_eq_true_eq] at hhas
      have hcode : c.toNat = '\u212a'.toNat := Nat.le_antisymm hhas.1.2 hhas.1.1
      obtain rfl := Char.toNat_inj.mp hcode
      exact .kelvin
    · refine .foreign (by omega) ?_
      rw [Capitals.toNat_small hr hhas]
      omega
  · exact .foreign (by omega) (by omega)

theorem lowersTo_lowerIn (before : List Char) (c : Char) (behind : List Char) :
    LowersTo c (lowerIn before c behind) := by
  unfold lowerIn
  split
  · rename_i hsigma
    simp only [Bool.and_eq_true, decide_eq_true_eq] at hsigma
    rw [hsigma.1.1]
    exact .foreign (by decide) (by decide)
  · exact lowersTo_lowerForm c

/-- The characters outside ASCII whose lower case form has one of ASCII in it. -/
theorem ascii_mem_lowerForm {c : Char} (hc : 128 ≤ c.toNat) :
    (∃ d ∈ lowerForm c, d.toNat < 128) ↔ c = '\u0130' ∨ c = '\u212a' := by
  constructor
  · rintro ⟨d, hd, hascii⟩
    have hform := lowersTo_lowerForm c
    generalize lowerForm c = form at hform hd
    cases hform with
    | ascii h => omega
    | dotted => exact .inl rfl
    | kelvin => exact .inr rfl
    | foreign _ hforeign =>
      rw [List.mem_singleton] at hd
      rw [hd] at hascii
      omega
  · rintro (rfl | rfl)
    · exact ⟨'i', by decide +kernel, by decide⟩
    · exact ⟨'k', by decide +kernel, by decide⟩

end SourceAudit.Text
