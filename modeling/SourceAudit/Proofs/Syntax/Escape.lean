import Mathlib.Data.List.Forall2
import Mathlib.Data.Nat.Digits.Lemmas
import SourceAudit.Syntax.Escape

/-!
What the body of a string literal stands for. A body splits in exactly one way into pieces: plain
characters, joins of lines, and escapes, each as long as it can be (`existsUnique_splits`). The text
that the body stands for is that of its pieces, one after the other, so every way to spell the
characters of a text is read as the text (`unescape_by_pieces`).
-/

namespace SourceAudit.Syntax

/-! ### Pieces -/

/-- The signs behind a backslash that stand for one character, and these characters. -/
def letters : List (Char × Char) :=
  [('n', '\n'), ('t', '\t'), ('r', '\r'), ('a', '\x07'), ('b', '\x08'), ('f', '\x0c'),
    ('v', '\x0b'), ('\\', '\\'), ('\'', '\''), ('"', '"')]

/-- The letters behind a backslash that begin a hexadecimal code, and the number of its digits. -/
def widths : List (Char × Nat) := [('x', 2), ('u', 4), ('U', 8)]

def octalDigits : List Char := ['0', '1', '2', '3', '4', '5', '6', '7']

def lowerHexDigits : List Char :=
  ['0', '1', '2', '3', '4', '5', '6', '7', '8', '9', 'a', 'b', 'c', 'd', 'e', 'f']

def hexDigits : List Char := lowerHexDigits ++ ['A', 'B', 'C', 'D', 'E', 'F']

/-- The number that digits spell, the first of them counting most. -/
def codeOf (radix : Nat) (digits : List Char) : Nat :=
  Nat.ofDigits radix (digits.reverse.map fun d => lowerHexDigits.idxOf d.toLower)

/-- The code of a character: no surrogate, and not above the last plane. -/
def IsScalar (n : Nat) : Prop := n < 0xD800 ∨ (0xDFFF < n ∧ n ≤ 0x10FFFF)

instance : DecidablePred IsScalar := fun n => inferInstanceAs (Decidable (n < _ ∨ (_ < n ∧ n ≤ _)))

/-- A piece of the body of a string literal. -/
inductive Piece where
  | plain (c : Char)
  /-- A backslash at the end of a line. -/
  | join (lineEnd : List Char)
  /-- A backslash and a sign for one character. -/
  | letter (sign c : Char)
  | octal (digits : List Char)
  | hex (letter : Char) (digits : List Char)
  /-- A hexadecimal code with too few digits. -/
  | short (letter : Char) (digits : List Char)
  /-- A backslash and a character that mean nothing together. -/
  | unknown (c : Char)
  /-- A backslash at the very end. -/
  | last
  deriving DecidableEq

namespace Piece

/-- How a piece is written. -/
def text : Piece → List Char
  | plain c => [c]
  | join lineEnd => '\\' :: lineEnd
  | letter sign _ => ['\\', sign]
  | octal digits => '\\' :: digits
  | hex e digits => '\\' :: e :: digits
  | short e digits => '\\' :: e :: digits
  | unknown c => ['\\', c]
  | last => ['\\']

/-- What a piece stands for. -/
def value : Piece → List Char
  | plain c => [c]
  | join _ => []
  | letter _ c => [c]
  | octal digits => [Char.ofNat (codeOf 8 digits)]
  | hex e digits =>
    if IsScalar (codeOf 16 digits) then [Char.ofNat (codeOf 16 digits)]
    else (hex e digits).text
  | short e digits => (short e digits).text
  | unknown c => (unknown c).text
  | last => last.text

/-- The piece is one of a body that goes on with `rest`. -/
inductive Fits : Piece → List Char → Prop
  | plain {c : Char} {rest : List Char} (hc : c ≠ '\\') : Fits (plain c) rest
  | feed {rest : List Char} : Fits (join ['\n']) rest
  | returnFeed {rest : List Char} : Fits (join ['\r', '\n']) rest
  | loneReturn {rest : List Char} (hrest : rest.head? ≠ some '\n') : Fits (join ['\r']) rest
  | letter {sign c : Char} {rest : List Char} (hsign : (sign, c) ∈ letters) :
      Fits (letter sign c) rest
  | octal {digits rest : List Char} (hne : digits ≠ []) (hlen : digits.length ≤ 3)
      (hdigits : ∀ d ∈ digits, d ∈ octalDigits)
      (hrest : digits.length < 3 → ∀ d ∈ rest.head?, d ∉ octalDigits) : Fits (octal digits) rest
  | hex {e : Char} {digits rest : List Char} (hwidth : (e, digits.length) ∈ widths)
      (hdigits : ∀ d ∈ digits, d ∈ hexDigits) : Fits (hex e digits) rest
  | short {e : Char} {digits rest : List Char} {width : Nat} (hwidth : (e, width) ∈ widths)
      (hlen : digits.length < width) (hdigits : ∀ d ∈ digits, d ∈ hexDigits)
      (hrest : ∀ d ∈ rest.head?, d ∉ hexDigits) : Fits (short e digits) rest
  | unknown {c : Char} {rest : List Char} (hline : c ≠ '\n' ∧ c ≠ '\r')
      (hletter : ∀ d, (c, d) ∉ letters) (hoctal : c ∉ octalDigits)
      (hwidth : ∀ width, (c, width) ∉ widths) : Fits (unknown c) rest
  | last : Fits last []

end Piece

/-- The body consists of the pieces. -/
inductive Splits : List Piece → List Char → Prop
  | nil : Splits [] []
  | cons {p : Piece} {ps : List Piece} {rest : List Char} (hp : p.Fits rest)
      (hps : Splits ps rest) : Splits (p :: ps) (p.text ++ rest)

/-! ### Digits -/

/-- The characters with the codes from `lo` on, `n` of them. -/
def charsFrom (lo n : Nat) : List Char := (List.range' lo n).map Char.ofNat

theorem mem_charsFrom {c : Char} {lo n : Nat} (hlo : lo ≤ c.toNat) (hhi : c.toNat < lo + n) :
    c ∈ charsFrom lo n :=
  List.mem_map.mpr ⟨c.toNat, List.mem_range'_1.mpr ⟨hlo, hhi⟩, Char.ofNat_toNat c⟩

-- Deciding the statement itself may run through all characters that there are.
theorem forall_of_all {P : Char → Prop} [DecidablePred P] {cs : List Char}
    (h : cs.all (fun c => decide (P c)) = true) : ∀ c ∈ cs, P c :=
  fun c hc => of_decide_eq_true (List.all_eq_true.mp h c hc)

theorem isOctalDigit_iff {c : Char} : isOctalDigit c = true ↔ c ∈ octalDigits := by
  have hfrom : ∀ d ∈ octalDigits, isOctalDigit d = true := forall_of_all (by decide)
  refine ⟨?_, hfrom c⟩
  intro h
  simp only [isOctalDigit, Bool.and_eq_true, decide_eq_true_eq] at h
  have hmem : c ∈ charsFrom 48 8 := mem_charsFrom h.1 (Nat.lt_succ_of_le h.2)
  exact hmem

theorem isHexDigit_iff {c : Char} : isHexDigit c = true ↔ c ∈ hexDigits := by
  have hfrom : ∀ d ∈ hexDigits, isHexDigit d = true := forall_of_all (by decide)
  refine ⟨?_, hfrom c⟩
  have hsub : charsFrom 48 10 ++ charsFrom 97 6 ++ charsFrom 65 6 ⊆ hexDigits := by decide
  intro h
  simp only [isHexDigit, Bool.or_eq_true, Bool.and_eq_true, decide_eq_true_eq] at h
  apply hsub
  simp only [List.mem_append]
  rcases h with (h | h) | h
  · exact .inl (.inl (mem_charsFrom h.1 (Nat.lt_succ_of_le h.2)))
  · exact .inl (.inr (mem_charsFrom h.1 (Nat.lt_succ_of_le h.2)))
  · exact .inr (mem_charsFrom h.1 (Nat.lt_succ_of_le h.2))

/-- A number is read from its digits place by place. -/
theorem numberOf_eq {r : Nat} {digits : List Char} (h : ∀ d ∈ digits, d ∈ hexDigits) :
    numberOf r digits = codeOf r digits := by
  have hvalue : ∀ d ∈ hexDigits, digitValue d = lowerHexDigits.idxOf d.toLower :=
    forall_of_all (by decide)
  have hmap : digits.map digitValue = digits.map fun d => lowerHexDigits.idxOf d.toLower :=
    List.map_congr_left fun d hd => hvalue d (h d hd)
  rw [codeOf, List.map_reverse, ← hmap, Nat.ofDigits_eq_foldr, List.foldr_reverse, List.foldl_map,
    numberOf]
  simp only [Nat.cast_id, Nat.add_comm, Nat.mul_comm]

theorem octalDigits_subset : octalDigits ⊆ hexDigits := by decide

theorem codeOf_octal_lt {digits : List Char} (hlen : digits.length ≤ 3)
    (h : ∀ d ∈ digits, d ∈ octalDigits) : codeOf 8 digits < 512 := by
  have hsmall : ∀ d ∈ octalDigits, lowerHexDigits.idxOf d.toLower < 8 :=
    forall_of_all (by decide)
  have hlt : codeOf 8 digits < 8 ^ digits.length := by
    have hdigits : ∀ n ∈ digits.reverse.map fun d => lowerHexDigits.idxOf d.toLower, n < 8 := by
      intro n hn
      obtain ⟨d, hd, rfl⟩ := List.mem_map.mp hn
      exact hsmall d (h d (List.mem_reverse.mp hd))
    simpa [codeOf] using Nat.ofDigits_lt_base_pow_length (by decide) hdigits
  calc codeOf 8 digits < 8 ^ digits.length := hlt
    _ ≤ 8 ^ 3 := Nat.pow_le_pow_right (by decide) hlen

theorem charOfCode?_eq (n : Nat) :
    charOfCode? n = if IsScalar n then some (Char.ofNat n) else none := by
  have hiff : n.isValidChar ↔ IsScalar n := by
    simp only [Nat.isValidChar, IsScalar]
    omega
  by_cases h : n.isValidChar
  · rw [if_pos (hiff.mp h), charOfCode?, dif_pos h, Char.ofNat, dif_pos h]
  · rw [if_neg (mt hiff.mpr h), charOfCode?, dif_neg h]

/-! ### Runs of digits -/

theorem takeUpTo_append {p : Char → Bool} {n : Nat} {digits rest : List Char}
    (hdigits : ∀ d ∈ digits, p d = true) (hlen : digits.length ≤ n)
    (hrest : digits.length < n → ∀ d ∈ rest.head?, p d = false) :
    takeUpTo p n (digits ++ rest) = digits := by
  rw [takeUpTo, List.take_append, List.take_of_length_le hlen,
    List.takeWhile_append_of_pos hdigits]
  rcases Nat.lt_or_eq_of_le hlen with hlt | heq
  · cases rest with
    | nil => simp
    | cons c rest =>
      have hc : p c = false := hrest hlt c rfl
      obtain ⟨k, hk⟩ := Nat.exists_eq_add_of_lt hlt
      have hsub : n - digits.length = k + 1 := by omega
      rw [hsub, List.take_succ_cons, List.takeWhile_cons_of_neg (by simp [hc]), List.append_nil]
  · rw [heq, Nat.sub_self, List.take_zero, List.takeWhile_nil, List.append_nil]

/-- The longest run is all of the text up to its end, and ends where it must. -/
theorem takeUpTo_spec (p : Char → Bool) (n : Nat) (cs : List Char) :
    takeUpTo p n cs ++ cs.drop (takeUpTo p n cs).length = cs ∧
      (∀ d ∈ takeUpTo p n cs, p d = true) ∧ (takeUpTo p n cs).length ≤ n ∧
      ((takeUpTo p n cs).length < n →
        ∀ d ∈ (cs.drop (takeUpTo p n cs).length).head?, p d = false) := by
  induction cs generalizing n with
  | nil => simp [takeUpTo]
  | cons c cs ih =>
    cases n with
    | zero => simp [takeUpTo]
    | succ n =>
      cases hc : p c with
      | false => simp [takeUpTo, hc]
      | true =>
        have hcons : takeUpTo p (n + 1) (c :: cs) = c :: takeUpTo p n cs := by
          simp [takeUpTo, hc]
        obtain ⟨hsplit, hall, hlen, hend⟩ := ih n
        rw [hcons]
        refine ⟨by simpa using hsplit, List.forall_mem_cons.mpr ⟨hc, hall⟩, by simpa using hlen, ?_⟩
        intro hlt
        exact hend (Nat.lt_of_succ_lt_succ hlt)

/-! ### The piece at the front of a body -/

theorem simpleEscape?_eq_some {e c : Char} : simpleEscape? e = some c ↔ (e, c) ∈ letters := by
  constructor
  · intro h
    unfold simpleEscape? at h
    split at h
    case h_11 => cases h
    all_goals
      cases h
      decide
  · have hall : ∀ l ∈ letters, simpleEscape? l.1 = some l.2 := by decide
    exact hall (e, c)

theorem hexWidth?_eq_some {e : Char} {width : Nat} :
    hexWidth? e = some width ↔ (e, width) ∈ widths := by
  constructor
  · intro h
    unfold hexWidth? at h
    split at h
    case h_4 => cases h
    all_goals
      cases h
      decide
  · have hall : ∀ l ∈ widths, hexWidth? l.1 = some l.2 := by decide
    exact hall (e, width)

/-- The piece of a hexadecimal code, whether it has all of its digits or not. -/
def hexPiece (e : Char) (width : Nat) (digits : List Char) : Piece :=
  if digits.length = width then .hex e digits else .short e digits

/-- The piece that begins with a backslash and `e`. -/
def escapePiece (e : Char) (rest : List Char) : Piece :=
  if e = '\n' then .join ['\n']
  else if e = '\r' then .join (if rest.head? = some '\n' then ['\r', '\n'] else ['\r'])
  else
    match simpleEscape? e with
    | some c => .letter e c
    | none =>
      if isOctalDigit e then .octal (e :: takeUpTo isOctalDigit 2 rest)
      else
        match hexWidth? e with
        | some width => hexPiece e width (takeUpTo isHexDigit width rest)
        | none => .unknown e

/-- A backslash, `e` and the rest begin with the piece, and are read as it. -/
structure ReadAs (p : Piece) (e : Char) (rest : List Char) (used : Nat) : Prop where
  value : escapeValue e rest = (p.value, used)
  text : p.text ++ rest.drop used = '\\' :: e :: rest
  fits : p.Fits (rest.drop used)

theorem octal_only : ∀ e ∈ octalDigits, e ≠ '\n' ∧ e ≠ '\r' ∧ simpleEscape? e = none :=
  forall_of_all (by decide)

theorem hex_only : ∀ l ∈ widths,
    l.1 ≠ '\n' ∧ l.1 ≠ '\r' ∧ simpleEscape? l.1 = none ∧ isOctalDigit l.1 = false := by decide

theorem escapePiece_octal {e : Char} (he : e ∈ octalDigits) (rest : List Char) :
    escapePiece e rest = .octal (e :: takeUpTo isOctalDigit 2 rest) := by
  obtain ⟨hfeed, hreturn, hletter⟩ := octal_only e he
  simp only [escapePiece, hfeed, hreturn, hletter, isOctalDigit_iff.mpr he, ↓reduceIte]

theorem readAs_octal {e : Char} (he : e ∈ octalDigits) (rest : List Char) :
    ReadAs (.octal (e :: takeUpTo isOctalDigit 2 rest)) e rest
      (takeUpTo isOctalDigit 2 rest).length := by
  obtain ⟨hsplit, hall, hlen, hend⟩ := takeUpTo_spec isOctalDigit 2 rest
  have hdigits : ∀ d ∈ e :: takeUpTo isOctalDigit 2 rest, d ∈ octalDigits :=
    List.forall_mem_cons.mpr ⟨he, fun d hd => isOctalDigit_iff.mp (hall d hd)⟩
  have hlen' : (e :: takeUpTo isOctalDigit 2 rest).length ≤ 3 := Nat.succ_le_succ hlen
  constructor
  case value =>
    obtain ⟨hfeed, hreturn, hletter⟩ := octal_only e he
    have hscalar : IsScalar (codeOf 8 (e :: takeUpTo isOctalDigit 2 rest)) :=
      .inl (Nat.lt_trans (codeOf_octal_lt hlen' hdigits) (by decide))
    have hcode := numberOf_eq (r := 8) fun d hd => octalDigits_subset (hdigits d hd)
    simp only [escapeValue, hfeed, hreturn, hletter, isOctalDigit_iff.mpr he, ↓reduceIte, hcode,
      charOfCode?_eq, hscalar, Piece.value]
  case text => rw [Piece.text, List.cons_append, List.cons_append, hsplit]
  case fits =>
    refine .octal nofun hlen' hdigits ?_
    intro hlt d hd
    rw [← isOctalDigit_iff, hend (Nat.lt_of_succ_lt_succ hlt) d hd]
    exact Bool.false_ne_true

theorem escapePiece_hex {e : Char} {width : Nat} (he : (e, width) ∈ widths) (rest : List Char) :
    escapePiece e rest = hexPiece e width (takeUpTo isHexDigit width rest) := by
  obtain ⟨hfeed, hreturn, hletter, hoctal⟩ := hex_only _ he
  simp only [escapePiece, hfeed, hreturn, hletter, hoctal, hexWidth?_eq_some.mpr he,
    Bool.false_eq_true, ↓reduceIte]

theorem value_hexPiece (e : Char) (width : Nat) (digits : List Char) :
    (hexPiece e width digits).value =
      if digits.length = width ∧ IsScalar (codeOf 16 digits) then [Char.ofNat (codeOf 16 digits)]
      else '\\' :: e :: digits := by
  by_cases hfull : digits.length = width
  · simp [hexPiece, hfull, Piece.value, Piece.text]
  · simp [hexPiece, hfull, Piece.value, Piece.text]

theorem text_hexPiece (e : Char) (width : Nat) (digits : List Char) :
    (hexPiece e width digits).text = '\\' :: e :: digits := by
  unfold hexPiece
  split
  · rfl
  · rfl

theorem readAs_hex {e : Char} {width : Nat} (he : (e, width) ∈ widths) (rest : List Char) :
    ReadAs (hexPiece e width (takeUpTo isHexDigit width rest)) e rest
      (takeUpTo isHexDigit width rest).length := by
  obtain ⟨hsplit, hall, hlen, hend⟩ := takeUpTo_spec isHexDigit width rest
  have hdigits : ∀ d ∈ takeUpTo isHexDigit width rest, d ∈ hexDigits :=
    fun d hd => isHexDigit_iff.mp (hall d hd)
  constructor
  case value =>
    obtain ⟨hfeed, hreturn, hletter, hoctal⟩ := hex_only _ he
    simp only [escapeValue, hfeed, hreturn, hletter, hoctal, hexWidth?_eq_some.mpr he,
      numberOf_eq hdigits, charOfCode?_eq, Bool.false_eq_true, ↓reduceIte, value_hexPiece]
    by_cases hscalar : IsScalar (codeOf 16 (takeUpTo isHexDigit width rest))
    · by_cases hfull : (takeUpTo isHexDigit width rest).length = width <;> simp [hscalar, hfull]
    · simp [hscalar]
  case text => rw [text_hexPiece, List.cons_append, List.cons_append, hsplit]
  case fits =>
    by_cases hfull : (takeUpTo isHexDigit width rest).length = width
    · rw [hexPiece, if_pos hfull]
      exact .hex (by rwa [hfull]) hdigits
    · have hlt : (takeUpTo isHexDigit width rest).length < width := by omega
      rw [hexPiece, if_neg hfull]
      refine .short he hlt hdigits ?_
      intro d hd
      rw [← isHexDigit_iff, hend hlt d hd]
      exact Bool.false_ne_true

theorem escapePiece_letter {e c : Char} (he : (e, c) ∈ letters) (rest : List Char) :
    escapePiece e rest = .letter e c := by
  have hline : ∀ l ∈ letters, l.1 ≠ '\n' ∧ l.1 ≠ '\r' := by decide
  obtain ⟨hfeed, hreturn⟩ := hline _ he
  simp only [escapePiece, hfeed, hreturn, simpleEscape?_eq_some.mpr he, ↓reduceIte]

/-- A character that means nothing behind a backslash begins no other escape. -/
theorem unknown_only {e : Char} {rest : List Char} (h : (Piece.unknown e).Fits rest) :
    e ≠ '\n' ∧ e ≠ '\r' ∧ simpleEscape? e = none ∧ isOctalDigit e = false ∧ hexWidth? e = none := by
  cases h with
  | unknown hline hletter hoctal hwidth =>
    refine ⟨hline.1, hline.2, ?_, Bool.eq_false_iff.mpr (mt isOctalDigit_iff.mp hoctal), ?_⟩
    · rw [Option.eq_none_iff_forall_ne_some]
      exact fun c hc => hletter c (simpleEscape?_eq_some.mp hc)
    · rw [Option.eq_none_iff_forall_ne_some]
      exact fun width he => hwidth width (hexWidth?_eq_some.mp he)

theorem escapePiece_unknown {e : Char} {rest : List Char} (h : (Piece.unknown e).Fits rest) :
    escapePiece e rest = .unknown e := by
  obtain ⟨hfeed, hreturn, hletter, hoctal, hwidth⟩ := unknown_only h
  simp only [escapePiece, hfeed, hreturn, hletter, hoctal, hwidth, Bool.false_eq_true, ↓reduceIte]

/-- An escape is read as the piece that it is. -/
theorem readAs_escapePiece (e : Char) (rest : List Char) :
    ∃ used, ReadAs (escapePiece e rest) e rest used := by
  by_cases hfeed : e = '\n'
  · subst e
    exact ⟨0, rfl, rfl, .feed⟩
  by_cases hreturn : e = '\r'
  · subst e
    by_cases hrest : rest.head? = some '\n'
    · obtain ⟨rest, rfl⟩ := List.head?_eq_some_iff.mp hrest
      exact ⟨1, rfl, rfl, .returnFeed⟩
    · have hpiece : escapePiece '\r' rest = .join ['\r'] := by simp [escapePiece, hrest]
      rw [hpiece]
      exact ⟨0, by simp [escapeValue, hrest, Piece.value], rfl, .loneReturn hrest⟩
  cases hletter : simpleEscape? e with
  | some c =>
    have he := simpleEscape?_eq_some.mp hletter
    rw [escapePiece_letter he rest]
    refine ⟨0, ?_, rfl, .letter he⟩
    simp [escapeValue, hfeed, hreturn, hletter, Piece.value]
  | none =>
    by_cases hoctal : e ∈ octalDigits
    · rw [escapePiece_octal hoctal rest]
      exact ⟨_, readAs_octal hoctal rest⟩
    cases hwidth : hexWidth? e with
    | some width =>
      have he := hexWidth?_eq_some.mp hwidth
      rw [escapePiece_hex he rest]
      exact ⟨_, readAs_hex he rest⟩
    | none =>
      have hfits : (Piece.unknown e).Fits rest := by
        refine .unknown ⟨hfeed, hreturn⟩ ?_ hoctal ?_
        · intro c hc
          rw [simpleEscape?_eq_some.mpr hc] at hletter
          cases hletter
        · intro width he
          rw [hexWidth?_eq_some.mpr he] at hwidth
          cases hwidth
      rw [escapePiece_unknown hfits]
      refine ⟨0, ?_, rfl, hfits⟩
      simp [escapeValue, hfeed, hreturn, hletter, mt isOctalDigit_iff.mp hoctal, hwidth,
        Piece.value, Piece.text]

/-- The piece at the front of a body. -/
def firstPiece? : List Char → Option Piece
  | [] => none
  | ['\\'] => some .last
  | '\\' :: e :: rest => some (escapePiece e rest)
  | c :: _ => some (.plain c)

theorem firstPiece?_plain {c : Char} (hc : c ≠ '\\') (rest : List Char) :
    firstPiece? (c :: rest) = some (.plain c) ∧ unescape (c :: rest) = c :: unescape rest := by
  constructor
  · unfold firstPiece?
    split <;> simp_all
  · rw [unescape.eq_def]
    split <;> simp_all

/-- A body that is not empty begins with a piece, and is read as this piece and its rest. -/
theorem exists_piece {body : List Char} (h : body ≠ []) :
    ∃ (p : Piece) (rest : List Char), p.Fits rest ∧ body = p.text ++ rest ∧
      unescape body = p.value ++ unescape rest := by
  obtain ⟨c, cs, rfl⟩ := List.exists_cons_of_ne_nil h
  by_cases hc : c = '\\'
  · subst c
    cases cs with
    | nil => exact ⟨.last, [], .last, rfl, by simp [unescape, Piece.value, Piece.text]⟩
    | cons e rest =>
      obtain ⟨used, hread⟩ := readAs_escapePiece e rest
      refine ⟨escapePiece e rest, rest.drop used, hread.fits, hread.text.symm, ?_⟩
      rw [unescape, hread.value]
  · exact ⟨.plain c, cs, .plain hc, rfl, (firstPiece?_plain hc cs).2⟩

/-- A piece that fits is the one at the front. -/
theorem Piece.Fits.firstPiece?_eq {p : Piece} {rest : List Char} (h : p.Fits rest) :
    firstPiece? (p.text ++ rest) = some p := by
  cases h with
  | plain hc => exact (firstPiece?_plain hc rest).1
  | feed => rfl
  | returnFeed => rfl
  | loneReturn hrest => simp [Piece.text, firstPiece?, escapePiece, hrest]
  | letter hsign => exact congrArg some (escapePiece_letter hsign rest)
  | @octal digits _ hne hlen hdigits hrest =>
    obtain ⟨e, more, rfl⟩ := List.exists_cons_of_ne_nil hne
    obtain ⟨he, hmore⟩ := List.forall_mem_cons.mp hdigits
    have hrun : takeUpTo isOctalDigit 2 (more ++ rest) = more := by
      apply takeUpTo_append
      · exact fun d hd => isOctalDigit_iff.mpr (hmore d hd)
      · exact Nat.le_of_succ_le_succ hlen
      · intro hlt d hd
        exact Bool.eq_false_iff.mpr (mt isOctalDigit_iff.mp (hrest (Nat.succ_lt_succ hlt) d hd))
    have hpiece := escapePiece_octal he (more ++ rest)
    rw [hrun] at hpiece
    exact congrArg some hpiece
  | @hex e digits _ hwidth hdigits =>
    have hrun : takeUpTo isHexDigit digits.length (digits ++ rest) = digits :=
      takeUpTo_append (fun d hd => isHexDigit_iff.mpr (hdigits d hd)) le_rfl
        fun hlt => absurd hlt (Nat.lt_irrefl _)
    have hpiece := escapePiece_hex hwidth (digits ++ rest)
    rw [hrun, hexPiece, if_pos rfl] at hpiece
    exact congrArg some hpiece
  | @short e digits _ width hwidth hlen hdigits hrest =>
    have hrun : takeUpTo isHexDigit width (digits ++ rest) = digits := by
      apply takeUpTo_append
      · exact fun d hd => isHexDigit_iff.mpr (hdigits d hd)
      · exact Nat.le_of_lt hlen
      · intro _ d hd
        exact Bool.eq_false_iff.mpr (mt isHexDigit_iff.mp (hrest d hd))
    have hpiece := escapePiece_hex hwidth (digits ++ rest)
    rw [hrun, hexPiece, if_neg (Nat.ne_of_lt hlen)] at hpiece
    exact congrArg some hpiece
  | unknown hline hletter hoctal hwidth =>
    exact congrArg some (escapePiece_unknown (.unknown hline hletter hoctal hwidth))
  | last => rfl

/-! ### Whole bodies -/

theorem Piece.text_ne_nil (p : Piece) : p.text ≠ [] := by
  cases p <;> exact List.cons_ne_nil _ _

/-- The piece at the front of a body, and what follows it, are determined. -/
theorem Piece.Fits.eq_of_append {p q : Piece} {rest more : List Char} (hp : p.Fits rest)
    (hq : q.Fits more) (h : p.text ++ rest = q.text ++ more) : p = q ∧ rest = more := by
  have heq : some p = some q := by rw [← hp.firstPiece?_eq, h, hq.firstPiece?_eq]
  cases heq
  exact ⟨rfl, List.append_cancel_left h⟩

/-- A piece that fits is read as what it stands for. -/
theorem Piece.Fits.unescape_eq {p : Piece} {rest : List Char} (h : p.Fits rest) :
    unescape (p.text ++ rest) = p.value ++ unescape rest := by
  have hne : p.text ++ rest ≠ [] := by simp [p.text_ne_nil]
  obtain ⟨q, more, hq, hbody, hvalue⟩ := exists_piece hne
  obtain ⟨rfl, rfl⟩ := h.eq_of_append hq hbody
  exact hvalue

theorem Splits.unescape_eq {ps : List Piece} {body : List Char} (h : Splits ps body) :
    unescape body = ps.flatMap Piece.value := by
  induction h with
  | nil => simp [unescape]
  | cons hp _ ih => rw [hp.unescape_eq, ih, List.flatMap_cons]

theorem Splits.unique {ps qs : List Piece} {body : List Char} (h : Splits ps body)
    (h' : Splits qs body) : ps = qs := by
  induction h generalizing qs with
  | nil =>
    generalize hbody : [] = body at h'
    cases h' with
    | nil => rfl
    | cons hq _ => exact absurd hbody.symm (by simp [Piece.text_ne_nil])
  | @cons p ps rest hp _ ih =>
    generalize hbody : p.text ++ rest = body at h'
    cases h' with
    | nil => exact absurd hbody (by simp [Piece.text_ne_nil])
    | cons hq hqs =>
      obtain ⟨rfl, rfl⟩ := hp.eq_of_append hq hbody
      rw [ih hqs]

theorem exists_splits (body : List Char) : ∃ ps, Splits ps body := by
  induction hlen : body.length using Nat.strongRecOn generalizing body with
  | ind n ih =>
    by_cases hne : body = []
    · subst hne
      exact ⟨[], .nil⟩
    · obtain ⟨p, rest, hp, rfl, -⟩ := exists_piece hne
      have htext := List.length_pos_iff.mpr p.text_ne_nil
      have hlt : rest.length < n := by
        rw [← hlen, List.length_append]
        omega
      obtain ⟨ps, hps⟩ := ih rest.length hlt rest rfl
      exact ⟨p :: ps, .cons hp hps⟩

theorem existsUnique_splits (body : List Char) : ∃! ps, Splits ps body := by
  obtain ⟨ps, hps⟩ := exists_splits body
  exact ⟨ps, hps, fun qs hqs => hqs.unique hps⟩

/-! ### Spellings -/

/-- The piece is a way to spell the character. -/
inductive Spelling : Piece → Char → Prop
  | plain {c : Char} (hc : c ≠ '\\') : Spelling (.plain c) c
  | letter {sign c : Char} (hsign : (sign, c) ∈ letters) : Spelling (.letter sign c) c
  | octal {digits : List Char} {c : Char} (hne : digits ≠ []) (hlen : digits.length ≤ 3)
      (hdigits : ∀ d ∈ digits, d ∈ octalDigits) (hcode : codeOf 8 digits = c.toNat) :
      Spelling (.octal digits) c
  | hex {e : Char} {digits : List Char} {c : Char} (hwidth : (e, digits.length) ∈ widths)
      (hdigits : ∀ d ∈ digits, d ∈ hexDigits) (hcode : codeOf 16 digits = c.toNat) :
      Spelling (.hex e digits) c
  | last : Spelling .last '\\'

/-- The rest does not go on with the piece: no octal digit follows an octal escape of one or two
digits, and nothing follows a backslash at the end. -/
def Piece.EndsBefore : Piece → List Char → Prop
  | .octal digits, rest => digits.length < 3 → ∀ d ∈ rest.head?, d ∉ octalDigits
  | .last, rest => rest = []
  | _, _ => True

/-- Each piece ends where the text of the next ones begins. -/
def Apart : List Piece → Prop
  | [] => True
  | p :: ps => p.EndsBefore (ps.flatMap Piece.text) ∧ Apart ps

theorem Spelling.fits {p : Piece} {c : Char} {rest : List Char} (h : Spelling p c)
    (hrest : p.EndsBefore rest) : p.Fits rest := by
  cases h with
  | plain hc => exact .plain hc
  | letter hsign => exact .letter hsign
  | octal hne hlen hdigits _ => exact .octal hne hlen hdigits hrest
  | hex hwidth hdigits _ => exact .hex hwidth hdigits
  | last =>
    cases hrest
    exact .last

theorem isScalar_toNat (c : Char) : IsScalar c.toNat := by
  have hvalid : c.toNat.isValidChar := c.valid
  simp only [Nat.isValidChar] at hvalid
  simp only [IsScalar]
  omega

theorem Spelling.value_eq {p : Piece} {c : Char} (h : Spelling p c) : p.value = [c] := by
  cases h with
  | plain hc => rfl
  | letter hsign => rfl
  | octal hne hlen hdigits hcode => rw [Piece.value, hcode, Char.ofNat_toNat]
  | hex hwidth hdigits hcode =>
    rw [Piece.value, hcode, if_pos (isScalar_toNat c), Char.ofNat_toNat]
  | last => rfl

theorem splits_of_spelling {ps : List Piece} {s : List Char} (h : List.Forall₂ Spelling ps s)
    (hapart : Apart ps) : Splits ps (ps.flatMap Piece.text) ∧ ps.flatMap Piece.value = s := by
  induction h with
  | nil => exact ⟨.nil, rfl⟩
  | cons hp _ ih =>
    obtain ⟨hends, hrest⟩ := hapart
    obtain ⟨hsplits, hvalue⟩ := ih hrest
    refine ⟨.cons (hp.fits hends) hsplits, ?_⟩
    rw [List.flatMap_cons, hp.value_eq, hvalue]
    rfl

/-- Every body splits in exactly one way into pieces, and it stands for what these stand for, one
after the other. So if each character of a text is spelled in some way, and no piece runs into the
next, then the spelling is read as the text. -/
theorem unescape_by_pieces :
    (∀ body, ∃! ps, Splits ps body) ∧
    (∀ ps body, Splits ps body → unescape body = ps.flatMap Piece.value) ∧
    ∀ ps s, List.Forall₂ Spelling ps s → Apart ps → unescape (ps.flatMap Piece.text) = s := by
  refine ⟨existsUnique_splits, fun ps body h => h.unescape_eq, ?_⟩
  intro ps s hspelled hapart
  obtain ⟨hsplits, hvalue⟩ := splits_of_spelling hspelled hapart
  rw [hsplits.unescape_eq, hvalue]

/-- A digit after an octal escape of three digits, and escapes of both sorts side by side. -/
theorem unescape_neighbours :
    unescape ['\\', '1', '0', '1', '1', '\\', '7', '\\', 'x', '4', '1', 'g'] =
      ['A', '1', '\x07', 'A', 'g'] := by
  refine unescape_by_pieces.2.2
    [.octal ['1', '0', '1'], .plain '1', .octal ['7'], .hex 'x' ['4', '1'], .plain 'g'] _ ?_ ?_
  · refine .cons (.octal ?_ ?_ (forall_of_all ?_) ?_) (.cons (.plain ?_)
      (.cons (.octal ?_ ?_ (forall_of_all ?_) ?_) (.cons (.hex ?_ (forall_of_all ?_) ?_)
        (.cons (.plain ?_) .nil))))
    all_goals decide
  · simp [Apart, Piece.EndsBefore, Piece.text, octalDigits]

end SourceAudit.Syntax
