import SourceAudit.Linter.Output
import SourceAudit.Proofs.Number.Nearest
import SourceAudit.Proofs.Text.Ranges
import SourceAudit.Proofs.Text.Trim

/-!
The score of a text. A score phrase can be read at the front of a text in one way only
(`phraseAt?_eq_some`), so the leftmost phrase of a text determines its numeral, and this numeral alone
the score (`score_of_leftmost`): the double that the numeral denotes if its digits are those of ASCII,
and none if there is another digit in it, whatever phrases follow.
-/

namespace SourceAudit.Linter

open SourceAudit.Number (Binary64)
open SourceAudit.Number.Binary64 (Rounds rounds_ofRatio)
open SourceAudit.Text (Stops ascii_of_isDecimalDigit dropWhile_run isBlank isBlank_of_visible
  isDecimalDigit isDecimalDigit_of_isBlank stops_cons takeWhile_run)

/-! ### Numerals -/

/-- The numeral as it is written. -/
def Numeral.text (n : Numeral) : List Char :=
  (if n.negative then ['-'] else []) ++
    (n.whole ++ if n.fraction = [] then [] else '.' :: n.fraction)

/-- There are digits before the point, and all digits are some. -/
structure Numeral.Proper (n : Numeral) : Prop where
  whole : n.whole ≠ []
  digits : ∀ c ∈ n.whole ++ n.fraction, isDecimalDigit c = true

/-- The absolute value that digits of ASCII denote. -/
def Numeral.magnitude (n : Numeral) : ℚ :=
  Nat.ofDigitChars 10 n.whole 0 + Nat.ofDigitChars 10 n.fraction 0 / 10 ^ n.fraction.length

/-! ### Score phrases -/

/-- A score phrase: the numeral, and the white space before it, behind it and behind the slash. -/
structure Phrase where
  before : List Char
  numeral : Numeral
  behind : List Char
  afterSlash : List Char
  separated : before ≠ []
  blank : ∀ c ∈ before ++ (behind ++ afterSlash), isBlank c = true
  proper : numeral.Proper

/-- The phrase as it is written. -/
def Phrase.text (p : Phrase) : List Char :=
  "rated at".toList ++ (p.before ++ (p.numeral.text ++
    (p.behind ++ '/' :: (p.afterSlash ++ "10".toList))))

/-- The phrase stands in the text behind `front`. -/
def StandsBehind (text front : List Char) (p : Phrase) : Prop :=
  ∃ rest, text = front ++ (p.text ++ rest)

/-- The phrase stands in the text, and none stands further left. -/
structure Leftmost (text front : List Char) (p : Phrase) : Prop where
  stands : StandsBehind text front p
  first : ∀ front' p', StandsBehind text front' p' → front.length ≤ front'.length

/-! ### Reading what is written -/

theorem afterWord?_eq_some {word cs rest : List Char} :
    afterWord? word cs = some rest ↔ cs = word ++ rest := by
  induction word generalizing cs with
  | nil => simp [afterWord?]
  | cons w word ih =>
    cases cs with
    | nil => simp [afterWord?]
    | cons c cs =>
      rw [afterWord?]
      split
      · rename_i hw
        simp [ih, hw]
      · rename_i hw
        simp [Ne.symm hw]

theorem isDecimalDigit_minus : isDecimalDigit '-' = false := by decide +kernel

theorem isDecimalDigit_point : isDecimalDigit '.' = false := by decide +kernel

theorem isDecimalDigit_slash : isDecimalDigit '/' = false := by decide +kernel

/-- The sign in front of a numeral, and what follows it. -/
def signed (cs : List Char) : Bool × List Char :=
  match cs with
  | '-' :: cs => (true, cs)
  | cs => (false, cs)

theorem signed_spec (cs : List Char) :
    cs = (if (signed cs).1 then ['-'] else []) ++ (signed cs).2 := by
  unfold signed
  split <;> rfl

theorem signed_append (negative : Bool) {cs : List Char} (h : cs.head? ≠ some '-') :
    signed ((if negative then ['-'] else []) ++ cs) = (negative, cs) := by
  cases negative with
  | true => rfl
  | false =>
    change signed cs = (false, cs)
    unfold signed
    split
    · exact absurd rfl h
    · rfl

/-- A numeral whose sign has been read. -/
def readDigits? (negative : Bool) (cs : List Char) : Option (Numeral × List Char) :=
  let whole := cs.takeWhile isDecimalDigit
  let rest := cs.dropWhile isDecimalDigit
  if whole.isEmpty then none
  else
    match rest with
    | '.' :: more =>
      let fraction := more.takeWhile isDecimalDigit
      if fraction.isEmpty then some (⟨negative, whole, []⟩, rest)
      else some (⟨negative, whole, fraction⟩, more.dropWhile isDecimalDigit)
    | _ => some (⟨negative, whole, []⟩, rest)

theorem readNumeral?_eq (cs : List Char) :
    readNumeral? cs = readDigits? (signed cs).1 (signed cs).2 := rfl

/-- A numeral that is read is proper, and stands in front. -/
theorem proper_of_readDigits? {negative : Bool} {cs rest : List Char} {n : Numeral}
    (h : readDigits? negative cs = some (n, rest)) :
    n.Proper ∧ (if negative then ['-'] else []) ++ cs = n.text ++ rest := by
  have hdigit (ds : List Char) : ∀ c ∈ ds.takeWhile isDecimalDigit, isDecimalDigit c = true :=
    fun c => List.mem_takeWhile_imp
  have hsplit (ds : List Char) : ds.takeWhile isDecimalDigit ++ ds.dropWhile isDecimalDigit = ds :=
    List.takeWhile_append_dropWhile
  have hcs := hsplit cs
  unfold readDigits? at h
  simp only at h
  split at h
  · cases h
  rename_i hwhole
  rw [List.isEmpty_iff] at hwhole
  split at h
  · rename_i more hmore
    split at h
    · cases h
      exact ⟨⟨hwhole, by simpa using hdigit cs⟩, by simp [Numeral.text, hcs]⟩
    · rename_i hfraction
      rw [List.isEmpty_iff] at hfraction
      cases h
      refine ⟨⟨hwhole, ?_⟩, ?_⟩
      · intro c hc
        rcases List.mem_append.mp hc with hc | hc
        · exact hdigit cs c hc
        · exact hdigit more c hc
      · rw [Numeral.text, if_neg hfraction, List.append_assoc, List.append_assoc, List.cons_append,
          hsplit more, ← hmore, hcs]
  · cases h
    exact ⟨⟨hwhole, by simpa using hdigit cs⟩, by simp [Numeral.text, hcs]⟩

theorem proper_of_readNumeral? {cs rest : List Char} {n : Numeral}
    (h : readNumeral? cs = some (n, rest)) : n.Proper ∧ cs = n.text ++ rest := by
  rw [readNumeral?_eq] at h
  rw [signed_spec cs]
  exact proper_of_readDigits? h

/-- A proper numeral is read to its end, if it does not go on there. -/
theorem readNumeral?_text {n : Numeral} (hn : n.Proper) {rest : List Char}
    (hdigit : Stops isDecimalDigit rest) (hpoint : rest.head? ≠ some '.') :
    readNumeral? (n.text ++ rest) = some (n, rest) := by
  obtain ⟨negative, whole, fraction⟩ := n
  obtain ⟨hwhole, hdigits⟩ := hn
  rw [List.forall_mem_append] at hdigits
  obtain ⟨hwholes, hfractions⟩ := hdigits
  have hempty : whole.isEmpty = false := by simpa using hwhole
  have hhead (tail : List Char) : (whole ++ tail).head? ≠ some '-' := by
    obtain ⟨c, cs, rfl⟩ := List.exists_cons_of_ne_nil hwhole
    rintro ⟨⟩
    exact absurd (hwholes '-' List.mem_cons_self) (by simp [isDecimalDigit_minus])
  rw [readNumeral?_eq, Numeral.text, List.append_assoc, List.append_assoc,
    signed_append negative (hhead _)]
  by_cases hfraction : fraction = []
  · subst hfraction
    simp only [readDigits?, if_true, List.nil_append, takeWhile_run hwholes hdigit,
      dropWhile_run hwholes hdigit, hempty]
    cases rest with
    | nil => rfl
    | cons c rest =>
      have hc : c ≠ '.' := by simpa using hpoint
      simp [hc]
  · have hstops : Stops isDecimalDigit ('.' :: (fraction ++ rest)) :=
      stops_cons isDecimalDigit_point _
    have hsome : fraction.isEmpty = false := by simpa using hfraction
    simp only [readDigits?, if_neg hfraction, List.cons_append, takeWhile_run hwholes hstops,
      dropWhile_run hwholes hstops, takeWhile_run hfractions hdigit,
      dropWhile_run hfractions hdigit, hempty, hsome]
    rfl

/-! ### The phrase at the front -/

theorem stops_blank {c : Char} (hlow : 0x20 < c.toNat) (hhigh : c.toNat < 0x7F) (cs : List Char) :
    Stops isBlank (c :: cs) :=
  stops_cons (isBlank_of_visible hlow hhigh) cs

theorem stops_blank_text {n : Numeral} (hn : n.Proper) (rest : List Char) :
    Stops isBlank (n.text ++ rest) := by
  obtain ⟨c, cs, hwhole⟩ := List.exists_cons_of_ne_nil hn.whole
  unfold Numeral.text
  split
  · exact stops_blank (by decide) (by decide) _
  · rw [hwhole]
    rintro d ⟨⟩
    rw [← Bool.not_eq_true]
    intro hblank
    have hdigit := hn.digits c (by simp [hwhole])
    rw [isDecimalDigit_of_isBlank hblank] at hdigit
    cases hdigit

namespace Phrase

variable (p : Phrase) (rest : List Char)

theorem blank_before : ∀ c ∈ p.before, isBlank c = true :=
  fun c hc => p.blank c (List.mem_append_left _ hc)

theorem blank_behind : ∀ c ∈ p.behind, isBlank c = true :=
  fun c hc => p.blank c (List.mem_append_right _ (List.mem_append_left _ hc))

theorem blank_afterSlash : ∀ c ∈ p.afterSlash, isBlank c = true :=
  fun c hc => p.blank c (List.mem_append_right _ (List.mem_append_right _ hc))

/-- What follows the numeral of a phrase. -/
def tail : List Char := p.behind ++ '/' :: (p.afterSlash ++ ("10".toList ++ rest))

theorem text_append :
    p.text ++ rest = "rated at".toList ++ (p.before ++ (p.numeral.text ++ p.tail rest)) := by
  unfold text tail
  generalize "rated at".toList = word
  generalize "10".toList = ten
  simp only [List.append_assoc, List.cons_append]

/-- A numeral does not go on with white space or a slash. -/
theorem stops_tail {q : Char → Bool} (hblank : ∀ c, isBlank c = true → q c = false)
    (hslash : q '/' = false) : Stops q (p.tail rest) := by
  apply Stops.behind_run p.blank_behind hblank
  rintro c ⟨⟩
  exact hslash

theorem head?_tail : (p.tail rest).head? ≠ some '.' := by
  intro hhead
  have hblank (c : Char) (hc : isBlank c = true) : (c == '.') = false := by
    rw [beq_eq_false_iff_ne]
    rintro rfl
    rw [isBlank_of_visible (by decide) (by decide)] at hc
    cases hc
  have hstops := p.stops_tail rest hblank (by decide)
  exact absurd (hstops '.' hhead) (by decide)

/-- A phrase is read at the front of a text. -/
theorem phraseAt?_text : phraseAt? (p.text ++ rest) = some p.numeral := by
  have hnumeral := stops_blank_text p.proper (p.tail rest)
  have hdigit := p.stops_tail rest (fun c => isDecimalDigit_of_isBlank) isDecimalDigit_slash
  have hread := readNumeral?_text p.proper hdigit (p.head?_tail rest)
  have hslash : (p.tail rest).dropWhile isBlank = '/' :: (p.afterSlash ++ ("10".toList ++ rest)) :=
    dropWhile_run p.blank_behind (stops_blank (by decide) (by decide) _)
  have hten : (p.afterSlash ++ ("10".toList ++ rest)).dropWhile isBlank = "10".toList ++ rest :=
    dropWhile_run p.blank_afterSlash (stops_blank (by decide) (by decide) _)
  have hend : (afterWord? "10".toList ("10".toList ++ rest)).isSome = true := by
    rw [afterWord?_eq_some.mpr (Eq.refl _)]
    rfl
  have hseparated : p.before.isEmpty = false := by simpa using p.separated
  rw [phraseAt?, afterWord?_eq_some.mpr (p.text_append rest)]
  simp only [takeWhile_run p.blank_before hnumeral, dropWhile_run p.blank_before hnumeral,
    hseparated, hread, hslash, hten, hend, if_true, Bool.false_eq_true, if_false]

end Phrase

/-- What is read at the front of a text is the numeral of a phrase there. -/
theorem phraseAt?_eq_some {cs : List Char} {n : Numeral} :
    phraseAt? cs = some n ↔ ∃ p : Phrase, StandsBehind cs [] p ∧ p.numeral = n := by
  constructor
  · intro h
    have hblanks (ds : List Char) : ∀ c ∈ ds.takeWhile isBlank, isBlank c = true :=
      fun c => List.mem_takeWhile_imp
    have hsplit (ds : List Char) : ds.takeWhile isBlank ++ ds.dropWhile isBlank = ds :=
      List.takeWhile_append_dropWhile
    unfold phraseAt? at h
    split at h
    · cases h
    rename_i afterRated hrated
    split at h
    · cases h
    rename_i hseparated
    rw [List.isEmpty_iff] at hseparated
    split at h
    · cases h
    rename_i m afterNumeral hnumeral
    split at h
    · rename_i afterSlash hslash
      split at h
      · rename_i hten
        cases h
        obtain ⟨rest, hten⟩ := Option.isSome_iff_exists.mp hten
        rw [afterWord?_eq_some] at hrated hten
        obtain ⟨hproper, htext⟩ := proper_of_readNumeral? hnumeral
        have hblank : ∀ c ∈ afterRated.takeWhile isBlank ++
            (afterNumeral.takeWhile isBlank ++ afterSlash.takeWhile isBlank),
            isBlank c = true := by
          simp only [List.forall_mem_append]
          exact ⟨hblanks _, hblanks _, hblanks _⟩
        refine ⟨⟨_, n, _, _, hseparated, hblank, hproper⟩, ⟨rest, ?_⟩, rfl⟩
        rw [List.nil_append, Phrase.text_append, Phrase.tail, ← hten, hsplit, ← hslash, hsplit,
          ← htext, hsplit, hrated]
      · cases h
    · cases h
  · rintro ⟨p, ⟨rest, rfl⟩, rfl⟩
    exact p.phraseAt?_text rest

/-! ### The leftmost phrase -/

theorem standsBehind_iff {text front : List Char} {p : Phrase} :
    StandsBehind text front p ↔ ∃ cs, text = front ++ cs ∧ StandsBehind cs [] p := by
  constructor
  · rintro ⟨rest, rfl⟩
    exact ⟨_, rfl, rest, rfl⟩
  · rintro ⟨cs, rfl, rest, rfl⟩
    exact ⟨rest, rfl⟩

theorem phraseAt?_nil : phraseAt? [] = none := rfl

/-- Nothing is found where no phrase is read. -/
theorem firstPhrase?_eq_none {text : List Char}
    (h : ∀ front cs, text = front ++ cs → phraseAt? cs = none) : firstPhrase? text = none := by
  induction text with
  | nil => rfl
  | cons c text ih =>
    rw [firstPhrase?, h [] (c :: text) rfl]
    refine ih ?_
    rintro front cs rfl
    exact h (c :: front) cs rfl

/-- The search steps over everything in front of the first phrase that is read. -/
theorem firstPhrase?_append {front cs : List Char} {n : Numeral} (hread : phraseAt? cs = some n)
    (hfirst : ∀ front' cs', front ++ cs = front' ++ cs' → front'.length < front.length →
      phraseAt? cs' = none) : firstPhrase? (front ++ cs) = some n := by
  induction front with
  | nil =>
    cases cs with
    | nil => rw [phraseAt?_nil] at hread; cases hread
    | cons c cs => rw [List.nil_append, firstPhrase?, hread]
  | cons c front ih =>
    rw [List.cons_append, firstPhrase?,
      hfirst [] (c :: (front ++ cs)) rfl (Nat.zero_lt_succ front.length)]
    refine ih ?_
    intro front' cs' hsplit hlt
    refine hfirst (c :: front') cs' ?_ ?_
    · rw [List.cons_append, List.cons_append, hsplit]
    · rw [List.length_cons, List.length_cons]
      omega

theorem firstPhrase?_of_leftmost {text front : List Char} {p : Phrase}
    (h : Leftmost text front p) : firstPhrase? text = some p.numeral := by
  obtain ⟨cs, rfl, hstands⟩ := standsBehind_iff.mp h.stands
  refine firstPhrase?_append (phraseAt?_eq_some.mpr ⟨p, hstands, rfl⟩) ?_
  intro front' cs' hsplit hlt
  apply Option.eq_none_iff_forall_ne_some.mpr
  intro n hread
  obtain ⟨p', hstands', -⟩ := phraseAt?_eq_some.mp hread
  have hle := h.first front' p' (standsBehind_iff.mpr ⟨cs', hsplit, hstands'⟩)
  omega

theorem exists_leftmost {text front : List Char} {p : Phrase} (h : StandsBehind text front p) :
    ∃ front p, Leftmost text front p := by
  induction hn : front.length using Nat.strong_induction_on generalizing front p with
  | _ n ih =>
    by_cases hfirst : ∀ front' p', StandsBehind text front' p' → front.length ≤ front'.length
    · exact ⟨front, p, h, hfirst⟩
    · push Not at hfirst
      obtain ⟨front', p', hstands, hlt⟩ := hfirst
      exact ih front'.length (hn ▸ hlt) hstands rfl

/-! ### The value of a numeral -/

theorem decimalValue_eq (digits : List Char) :
    decimalValue digits = Nat.ofDigitChars 10 digits 0 := by
  rw [decimalValue, Nat.ofDigitChars_eq_foldl]
  simp only [Nat.mul_comm 10]

/-- The digits before and behind the point, taken together, are the value times a power of ten. -/
theorem magnitude_eq (n : Numeral) :
    n.magnitude =
      (decimalValue (n.whole ++ n.fraction) : ℚ) / (Nat.pow 10 n.fraction.length : Nat) := by
  have hpos : (10 : ℚ) ^ n.fraction.length ≠ 0 := by positivity
  rw [decimalValue_eq, Nat.ofDigitChars_append, Nat.ofDigitChars_eq_ofDigitChars_zero,
    Numeral.magnitude, Nat.pow_eq]
  push_cast
  rw [add_div, mul_div_cancel_left₀ _ hpos]

theorem mem_text {n : Numeral} {c : Char} (hc : c ∈ n.text) :
    c = '-' ∨ c = '.' ∨ c ∈ n.whole ++ n.fraction := by
  unfold Numeral.text at hc
  rcases List.mem_append.mp hc with hc | hc
  · split at hc
    · exact .inl (List.mem_singleton.mp hc)
    · cases hc
  · right
    rcases List.mem_append.mp hc with hc | hc
    · exact .inr (List.mem_append_left _ hc)
    · split at hc
      · cases hc
      · rcases List.mem_cons.mp hc with hc | hc
        · exact .inl hc
        · exact .inr (List.mem_append_right _ hc)

theorem mem_text_of_digit {n : Numeral} {c : Char} (hc : c ∈ n.whole ++ n.fraction) :
    c ∈ n.text := by
  unfold Numeral.text
  rcases List.mem_append.mp hc with hc | hc
  · exact List.mem_append_right _ (List.mem_append_left _ hc)
  · rw [if_neg (List.ne_nil_of_mem hc)]
    exact List.mem_append_right _ (List.mem_append_right _ (List.mem_cons_of_mem _ hc))

/-- A numeral of ASCII has the double that it denotes. -/
theorem value?_of_ascii {n : Numeral} (hn : n.Proper) (hascii : ∀ c ∈ n.text, c.toNat < 128) :
    ∃ x, n.value? = some x ∧ Rounds n.negative n.magnitude x := by
  have hall : (n.whole ++ n.fraction).all isAsciiDigit = true := by
    rw [List.all_eq_true]
    intro c hc
    have hdigit := ascii_of_isDecimalDigit (hn.digits c hc) (hascii c (mem_text_of_digit hc))
    simpa [isAsciiDigit] using hdigit
  refine ⟨_, if_pos hall, ?_⟩
  rw [magnitude_eq]
  exact rounds_ofRatio n.negative (Nat.pow_pos (by decide))

/-- A digit outside ASCII leaves a numeral without a value. -/
theorem value?_eq_none {n : Numeral} {c : Char} (hc : c ∈ n.text) (hother : 128 ≤ c.toNat) :
    n.value? = none := by
  have hmem : c ∈ n.whole ++ n.fraction := by
    rcases mem_text hc with rfl | rfl | hmem
    · exact absurd hother (by decide)
    · exact absurd hother (by decide)
    · exact hmem
  refine if_neg fun hall => ?_
  have hdigit := List.all_eq_true.mp hall c hmem
  have hle : c ≤ '9' := by
    rw [isAsciiDigit, Bool.and_eq_true] at hdigit
    exact of_decide_eq_true hdigit.2
  have hcode : c.toNat ≤ 57 := hle
  omega

/-! ### The score -/

/-- A text without a score phrase has no score. In any other the leftmost phrase determines a
numeral, and this the score: the one double that it is rounded to if it is written in ASCII, and
none if it has another digit, also if a later phrase could be read. A run of the linter has the
score of its error output and, only if there is none, that of its output. -/
theorem score_of_leftmost (text : List Char) :
    ((∀ front p, ¬ StandsBehind text front p) → score? text = none) ∧
    (∀ front p, StandsBehind text front p → ∃ front p, Leftmost text front p) ∧
    (∀ front p, Leftmost text front p →
      (∀ front' p', Leftmost text front' p' → p'.numeral.text = p.numeral.text) ∧
      ((∀ c ∈ p.numeral.text, c.toNat < 128) →
        ∃ x, score? text = some x ∧ Rounds p.numeral.negative p.numeral.magnitude x ∧
          ∀ y, Rounds p.numeral.negative p.numeral.magnitude y → y = x) ∧
      ((∃ c ∈ p.numeral.text, 128 ≤ c.toNat) → score? text = none)) ∧
    ∀ stdout stderr outcome, readOutput? stdout stderr = some outcome →
      (∀ x, score? stderr = some x → outcome.score = some x) ∧
      (score? stderr = none → outcome.score = score? stdout) := by
  refine ⟨?_, fun front p => exists_leftmost, ?_, ?_⟩
  · intro hnone
    have hfirst : firstPhrase? text = none := by
      apply firstPhrase?_eq_none
      rintro front cs rfl
      apply Option.eq_none_iff_forall_ne_some.mpr
      intro n hread
      obtain ⟨p, hstands, -⟩ := phraseAt?_eq_some.mp hread
      exact hnone front p (standsBehind_iff.mpr ⟨cs, rfl, hstands⟩)
    rw [score?, hfirst, Option.bind_none]
  · intro front p hleftmost
    have hfirst := firstPhrase?_of_leftmost hleftmost
    have hscore : score? text = p.numeral.value? := by rw [score?, hfirst, Option.bind_some]
    refine ⟨?_, ?_, ?_⟩
    · intro front' p' hleftmost'
      have hfirst' := firstPhrase?_of_leftmost hleftmost'
      rw [hfirst] at hfirst'
      rw [Option.some.inj hfirst']
    · intro hascii
      obtain ⟨x, hvalue, hrounds⟩ := value?_of_ascii p.proper hascii
      exact ⟨x, hscore.trans hvalue, hrounds, fun y hy => hy.unique hrounds⟩
    · rintro ⟨c, hc, hother⟩
      rw [hscore]
      exact value?_eq_none hc hother
  · intro stdout stderr outcome hread
    obtain ⟨messages, -, rfl⟩ := Option.map_eq_some_iff.mp hread
    refine ⟨?_, ?_⟩
    · intro x hx
      rw [hx, Option.some_or]
    · intro hnone
      rw [hnone, Option.none_or]

theorem isBlank_space : isBlank ' ' = true := by decide +kernel

theorem isDecimalDigit_arabic : isDecimalDigit '\u0663' = true := by decide +kernel

/-- A phrase with an Arabic digit. -/
def foreignPhrase : Phrase where
  before := [' ']
  numeral := ⟨false, ['\u0663'], []⟩
  behind := []
  afterSlash := [' ']
  separated := List.cons_ne_nil _ _
  blank := by simp [isBlank_space]
  proper := ⟨List.cons_ne_nil _ _, by simp [isDecimalDigit_arabic]⟩

theorem foreignPhrase_unscored :
    Leftmost (foreignPhrase.text ++ ", rated at 5/10".toList) [] foreignPhrase ∧
      score? (foreignPhrase.text ++ ", rated at 5/10".toList) = none ∧
      (score? ", rated at 5/10".toList).isSome = true := by
  have hleftmost : Leftmost (foreignPhrase.text ++ ", rated at 5/10".toList) [] foreignPhrase :=
    ⟨⟨_, rfl⟩, fun _ _ _ => Nat.zero_le _⟩
  obtain ⟨-, -, hscore, -⟩ := score_of_leftmost (foreignPhrase.text ++ ", rated at 5/10".toList)
  obtain ⟨-, -, hnone⟩ := hscore [] foreignPhrase hleftmost
  exact ⟨hleftmost, hnone ⟨'\u0663', by decide, by decide⟩, by decide +kernel⟩

-- Minus two and a half, before the score of an earlier run.
example : score? "rated at -2.50/10 (previous run: rated at 1.00/10)".toList =
    some ⟨0xC004000000000000⟩ := by decide +kernel

end SourceAudit.Linter
