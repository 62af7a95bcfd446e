import SourceAudit.Json.Reader
import SourceAudit.Proofs.Json.Double

/-!
The tokens of a written value. `tokensOf` lists them without a text; `spells_prettyAt` says that the
text of a value has these tokens, with the blanks of the layout between them, if its integers fit
into 64 bits and its doubles are finite. A double is read from its text as one that may differ in
its last places, so the tokens are those of the value as it is read again (`reread`).
-/

namespace SourceAudit.Json

open SourceAudit.Number (Binary64)

/-! ### Strings -/

theorem hexValue?_hexDigit : ∀ n, n < 16 → hexValue? (hexDigit n) = some n := by decide

/-- A control character without an escape of its own is read from its code. -/
theorem hexCode?_control {c : Char} (hc : c.toNat < 32) :
    hexCode? '0' '0' (hexDigit (c.toNat / 16)) (hexDigit (c.toNat % 16)) = some c.toNat := by
  have hz : hexValue? '0' = some 0 := by decide
  simp only [hexCode?, hz, hexValue?_hexDigit (c.toNat / 16) (by omega),
    hexValue?_hexDigit (c.toNat % 16) (by omega), Option.some.injEq]
  omega

theorem readString_control {c : Char} (hc : c.toNat < 32) (done rest : List Char) :
    readString true none done
        (['\\', 'u', '0', '0', hexDigit (c.toNat / 16), hexDigit (c.toNat % 16)] ++ rest) =
      readString true none (c :: done) rest := by
  have h1 : ¬ (0xDC00 ≤ c.toNat && c.toNat ≤ 0xDFFF) = true := by simp; omega
  have h2 : ¬ (0xD800 ≤ c.toNat && c.toNat ≤ 0xDBFF) = true := by simp; omega
  simp only [List.cons_append, List.nil_append, readString, hexCode?_control hc]
  rw [if_neg h1, if_neg h2, Char.ofNat_toNat]

theorem readString_plain {sound : Bool} {high : Option Nat} {c : Char} (hq : c ≠ '"')
    (hb : c ≠ '\\') (hc : ¬ c.toNat < 32) (done rest : List Char) :
    readString sound high done (c :: rest) = readString sound none (c :: done) rest := by
  rw [readString.eq_def]
  split
  · rename_i heq
    cases heq
  · rename_i heq
    cases heq
    exact absurd rfl hq
  · rename_i heq
    cases heq
    exact absurd rfl hb
  · rename_i heq
    cases heq
    exact absurd rfl hb
  · rename_i heq
    cases heq
    rw [if_neg (by simp [hb, hc])]

/-- An escaped character is read as the character itself. -/
theorem readString_escapeChar (c : Char) (done rest : List Char) :
    readString true none done (escapeChar c ++ rest) = readString true none (c :: done) rest := by
  unfold escapeChar
  split
  · subst c; simp [readString, simpleEscape?]
  split
  · subst c; simp [readString, simpleEscape?]
  split
  · subst c; simp [readString, simpleEscape?]
  split
  · subst c; simp [readString, simpleEscape?]
  split
  · subst c; simp [readString, simpleEscape?]
  split
  · subst c; simp [readString, simpleEscape?]
  split
  · subst c; simp [readString, simpleEscape?]
  split
  · rename_i hc
    exact readString_control hc done rest
  · rename_i hq hb _ _ _ _ _ hc
    exact readString_plain hq hb hc done rest

/-- A written string is read back, whatever follows it. -/
theorem readString_escaped (cs done rest : List Char) :
    readString true none done (cs.flatMap escapeChar ++ '"' :: rest) =
      some (.str (String.ofList (done.reverse ++ cs)), rest) := by
  induction cs generalizing done with
  | nil => simp [readString, stringToken]
  | cons c cs ih =>
    rw [List.flatMap_cons, List.append_assoc, readString_escapeChar, ih]
    simp
/-! ### Texts and their tokens -/

/-- A text has the given tokens. One token takes one unit of fuel, so the length is enough. -/
def Spells (cs : List Char) (ts : List Token) : Prop :=
  ∀ fuel, cs.length ≤ fuel → tokensUpTo fuel cs = some ts

theorem spells_nil : Spells [] [] := by
  intro fuel _
  cases fuel <;> rfl

theorem spells_token {c : Char} {cs r : List Char} {t : Token} {ts : List Token}
    (hb : isBlank c = false) (ht : readToken c cs = some (t, r)) (hl : r.length ≤ cs.length)
    (hr : Spells r ts) : Spells (c :: cs) (t :: ts) := by
  intro fuel hf
  cases fuel with
  | zero => simp at hf
  | succ fuel =>
    rw [List.length_cons] at hf
    simp only [tokensUpTo, hb, ht, hr fuel (by omega)]
    rfl

theorem spells_blanks {bs cs : List Char} {ts : List Token} (hb : ∀ c ∈ bs, isBlank c = true)
    (h : Spells cs ts) : Spells (bs ++ cs) ts := by
  induction bs with
  | nil => exact h
  | cons b bs ih =>
    intro fuel hf
    cases fuel with
    | zero => simp at hf
    | succ fuel =>
      have hbs := ih (fun c hc => hb c (by simp [hc]))
      simp only [List.cons_append, List.length_cons] at hf
      simp only [List.cons_append, tokensUpTo, hb b (by simp), ↓reduceIte]
      exact hbs fuel (by omega)

theorem spells_newLine (level : Nat) {cs : List Char} {ts : List Token} (h : Spells cs ts) :
    Spells (newLine level ++ cs) ts := by
  apply spells_blanks _ h
  intro c hc
  simp only [newLine, List.mem_cons, List.mem_replicate] at hc
  rcases hc with rfl | ⟨-, rfl⟩ <;> decide

/-! ### Doubles -/

/-- The text of a double is read as that double. -/
def ReadsBack (x : Binary64) : Prop := parse? (doubleText x) = some (.double x)

/-- The double that the text of a double is read as. -/
def rereadDouble (x : Binary64) : Binary64 :=
  match parse? (doubleText x) with
  | some (.double y) => y
  | _ => x

theorem ReadsBack.rereadDouble_eq {x : Binary64} (h : ReadsBack x) : rereadDouble x = x := by
  have hparse : parse? (doubleText x) = some (.double x) := h
  rw [rereadDouble, hparse]

theorem scalarValue?_isFinite {t : Token} {x : Binary64}
    (h : Document.scalarValue? t = some (.double x)) : x.isFinite = true := by
  unfold Document.scalarValue? at h
  split at h
  case h_4 =>
    split at h
    · rename_i hfinite
      cases h
      exact hfinite
    · cases h
  all_goals cases h

theorem ReadsBack.isFinite {x : Binary64} (h : ReadsBack x) : x.isFinite = true := by
  obtain ⟨d, -, hvalue⟩ := Option.bind_eq_some_iff.mp h
  cases d with
  | scalar t => exact scalarValue?_isFinite hvalue
  | arr ds =>
    obtain ⟨vs, -, hvs⟩ := Option.map_eq_some_iff.mp hvalue
    cases hvs
  | obj fs =>
    obtain ⟨vs, -, hvs⟩ := Option.map_eq_some_iff.mp hvalue
    cases hvs

theorem isBlank_of_isDigit {c : Char} (h : isDigit c = true) : isBlank c = false := by
  cases hb : isBlank c with
  | false => rfl
  | true =>
    simp only [isBlank, Bool.or_eq_true, decide_eq_true_eq] at hb
    rcases hb with ((rfl | rfl) | rfl) | rfl <;> exact absurd h (by decide)

/-- A number begins with a sign or a digit. -/
theorem isBlank_of_startsNumber {c : Char} (hc : c = '-' ∨ isDigit c = true) :
    isBlank c = false := by
  rcases hc with rfl | hc
  · decide
  · exact isBlank_of_isDigit hc

/-- The token of a number where it stands in a text. -/
theorem readToken_append {rest : List Char} (hr : EndsNumber rest) {c : Char} {cs r : List Char}
    {t : Token} (hc : c = '-' ∨ isDigit c = true) (h : readToken c cs = some (t, r)) :
    readToken c (cs ++ rest) = some (t, r ++ rest) := by
  rcases hc with rfl | hc
  · rw [readToken_minus] at h ⊢
    exact readNumber_append hr h
  · rw [readToken_digit hc] at h ⊢
    exact readNumber_append hr h

/-- The text of a finite double is one token, of the double that it is read as. -/
theorem readToken_rereadDouble {x : Binary64} (hx : x.isFinite = true) :
    (rereadDouble x).isFinite = true ∧ ∃ c cs, doubleText x = c :: cs ∧
      (c = '-' ∨ isDigit c = true) ∧ readToken c cs = some (.double (rereadDouble x), []) := by
  obtain ⟨y, c, cs, hy, htext, hc, hread⟩ := readToken_doubleText hx
  have hspell : Spells (doubleText x) [.double y] := by
    rw [htext]
    exact spells_token (isBlank_of_startsNumber hc) hread (Nat.zero_le _) spells_nil
  have hparse : parse? (doubleText x) = some (.double y) := by
    have htokens : tokens? (doubleText x) = some [.double y] := hspell _ (Nat.le_refl _)
    rw [parse?, Document.parse?, htokens]
    simp [Document.ofTokens?, readAll, readStep, readValue, Document.value?, Document.scalarValue?,
      hy]
  have hreread : rereadDouble x = y := by rw [rereadDouble, hparse]
  rw [hreread]
  exact ⟨hy, c, cs, htext, hc, hread⟩

theorem spells_double {x : Binary64} (hx : x.isFinite = true) {rest : List Char} {ts : List Token}
    (hr : EndsNumber rest) (h : Spells rest ts) :
    Spells (doubleText x ++ rest) (.double (rereadDouble x) :: ts) := by
  obtain ⟨-, c, cs, htext, hc, ht⟩ := readToken_rereadDouble hx
  rw [htext, List.cons_append]
  apply spells_token (isBlank_of_startsNumber hc) (readToken_append hr hc ht)
  · simp
  · exact h

/-! ### Integers, strings and words -/

theorem spells_int {n : Int} (hn : FitsWord n) {rest : List Char} {ts : List Token}
    (hr : EndsNumber rest) (h : Spells rest ts) : Spells (intText n ++ rest) (.int n :: ts) := by
  obtain ⟨hlo, hhi⟩ := hn
  have hw : n.natAbs < wordLimit := by
    simp only [wordLimit] at hhi ⊢
    omega
  unfold intText
  split
  · rename_i hneg
    have htok : integerToken true n.natAbs = .int n := by
      have hz : ¬ (n.natAbs = 0 || n.natAbs > 1 <<< 63) = true := by
        simp only [Bool.or_eq_true, decide_eq_true_eq]
        omega
      simp only [integerToken, Bool.not_true, Bool.false_eq_true, ↓reduceIte, hz]
      congr 1
      omega
    rw [List.cons_append]
    refine spells_token (by decide) ?_ ?_ h
    · rw [readToken_minus, readNumber_toDigits hr true hw, htok]
    · simp
  · rename_i hpos
    have htok : integerToken false n.natAbs = .int n := by
      simp only [integerToken, Bool.not_false, ↓reduceIte]
      congr 1
      omega
    have hread := readNumber_toDigits hr false hw
    cases hds : Nat.toDigits 10 n.natAbs with
    | nil => exact absurd hds Nat.toDigits_ne_nil
    | cons d ds =>
      have hd : isDigit d = true := isDigit_of_mem_toDigits (by rw [hds]; simp)
      rw [List.cons_append]
      refine spells_token (isBlank_of_isDigit hd) ?_ ?_ h
      · rw [readToken_digit hd, ← List.cons_append, ← hds, hread, htok]
      · simp

theorem spells_string (s : String) {rest : List Char} {ts : List Token} (h : Spells rest ts) :
    Spells (stringText s ++ rest) (.str s :: ts) := by
  have hread : readToken '"' (s.toList.flatMap escapeChar ++ '"' :: rest) =
      some (.str s, rest) := by
    have := readString_escaped s.toList [] rest
    simpa [readToken] using this
  rw [stringText, List.cons_append, List.append_assoc]
  refine spells_token (by decide) hread ?_ h
  simp only [List.length_append, List.length_cons]
  omega

theorem dropWord?_append (w cs : List Char) : dropWord? w (w ++ cs) = some cs := by
  induction w with
  | nil => rfl
  | cons c w ih => simp [dropWord?, ih]

theorem wordFrom?_start {c : Char} {w : List Char} {t : Token} (h : wordFrom? c = some (w, t)) :
    c ≠ '"' ∧ c ≠ '-' ∧ isDigit c = false ∧ isBlank c = false := by
  unfold wordFrom? at h
  split at h
  case h_10 => cases h
  all_goals decide

/-- A word or a sign is a token whatever follows it. -/
theorem spells_word {c : Char} {w : List Char} {t : Token} (hw : wordFrom? c = some (w, t))
    {rest : List Char} {ts : List Token} (h : Spells rest ts) :
    Spells ((c :: w) ++ rest) (t :: ts) := by
  obtain ⟨hquote, hminus, hdigit, hblank⟩ := wordFrom?_start hw
  have hread : readToken c (w ++ rest) = some (t, rest) := by
    rw [readToken, if_neg hquote, if_neg hminus, hdigit]
    simp [hw, dropWord?_append]
  have hl : rest.length ≤ (w ++ rest).length := by
    rw [List.length_append]
    omega
  exact spells_token hblank hread hl h

theorem spells_sign {c : Char} {t : Token} (hw : wordFrom? c = some ([], t)) {rest : List Char}
    {ts : List Token} (h : Spells rest ts) : Spells (c :: rest) (t :: ts) :=
  spells_word hw h

/-! ### Values -/

mutual

/-- The tokens of a value. -/
def tokensOf : Json → List Token
  | .null => [.null]
  | .bool b => [.bool b]
  | .int n => [.int n]
  | .double x => [.double x]
  | .str s => [.str s]
  | .arr [] => [.openArray, .closeArray]
  | .arr (x :: xs) => .openArray :: (x.tokensOf ++ tokensOfRest xs)
  | .obj [] => [.openObject, .closeObject]
  | .obj ((n, v) :: fs) => .openObject :: .str n :: .colon :: (v.tokensOf ++ tokensOfFields fs)

/-- The tokens of the elements after the first one and of the end of the array. -/
def tokensOfRest : List Json → List Token
  | [] => [.closeArray]
  | x :: xs => .comma :: (x.tokensOf ++ tokensOfRest xs)

/-- The tokens of the fields after the first one and of the end of the object. -/
def tokensOfFields : List (String × Json) → List Token
  | [] => [.closeObject]
  | (n, v) :: fs => .comma :: .str n :: .colon :: (v.tokensOf ++ tokensOfFields fs)

end

mutual

/-- The values inside a value that are no arrays and objects, in order. -/
def scalars : Json → List Json
  | .arr xs => scalarsList xs
  | .obj fs => scalarsFields fs
  | .null => [.null]
  | .bool b => [.bool b]
  | .int n => [.int n]
  | .double x => [.double x]
  | .str s => [.str s]

def scalarsList : List Json → List Json
  | [] => []
  | x :: xs => x.scalars ++ scalarsList xs

def scalarsFields : List (String × Json) → List Json
  | [] => []
  | (_, v) :: fs => v.scalars ++ scalarsFields fs

end

/-- A scalar whose text is read as the scalar. -/
def Faithful : Json → Prop
  | .int n => FitsWord n
  | .double x => ReadsBack x
  | _ => True

/-- A value whose text can be read back, the order of fields apart. -/
def Legible (j : Json) : Prop := ∀ s ∈ j.scalars, s.Faithful

/-- The numbers of the value are those that JSON has: integers of 64 bits and finite doubles. -/
structure HasJsonNumbers (v : Json) : Prop where
  fitsWord : ∀ n, .int n ∈ v.scalars → FitsWord n
  isFinite : ∀ x, .double x ∈ v.scalars → x.isFinite = true

theorem Legible.hasJsonNumbers {j : Json} (h : j.Legible) : j.HasJsonNumbers :=
  ⟨fun n hn => h (.int n) hn, fun x hx => ReadsBack.isFinite (h (.double x) hx)⟩

theorem HasJsonNumbers.mono {v w : Json} (h : v.HasJsonNumbers) (hw : w.scalars ⊆ v.scalars) :
    w.HasJsonNumbers :=
  ⟨fun n hn => h.fitsWord n (hw hn), fun x hx => h.isFinite x (hw hx)⟩

theorem HasJsonNumbers.of_cons {x : Json} {xs : List Json} (h : (arr (x :: xs)).HasJsonNumbers) :
    x.HasJsonNumbers ∧ (arr xs).HasJsonNumbers :=
  ⟨h.mono (List.subset_append_left _ _), h.mono (List.subset_append_right _ _)⟩

theorem HasJsonNumbers.of_field {n : String} {v : Json} {fs : List (String × Json)}
    (h : (obj ((n, v) :: fs)).HasJsonNumbers) : v.HasJsonNumbers ∧ (obj fs).HasJsonNumbers :=
  ⟨h.mono (List.subset_append_left _ _), h.mono (List.subset_append_right _ _)⟩

mutual

/-- The value with each double as it is read from its text. -/
def reread : Json → Json
  | .arr xs => .arr (rereadList xs)
  | .obj fs => .obj (rereadFields fs)
  | .null => .null
  | .bool b => .bool b
  | .int n => .int n
  | .double x => .double (rereadDouble x)
  | .str s => .str s

def rereadList : List Json → List Json
  | [] => []
  | x :: xs => x.reread :: rereadList xs

def rereadFields : List (String × Json) → List (String × Json)
  | [] => []
  | (n, v) :: fs => (n, v.reread) :: rereadFields fs

end

theorem endsNumber_comma (cs : List Char) : EndsNumber (',' :: cs) :=
  endsNumber_cons cs (by decide)

theorem endsNumber_newLine (level : Nat) (cs : List Char) : EndsNumber (newLine level ++ cs) :=
  endsNumber_cons _ (by decide)

theorem endsNumber_prettyRest (level : Nat) (xs : List Json) (cs : List Char) :
    EndsNumber (prettyRest level xs ++ cs) := by
  cases xs with
  | nil =>
    rw [prettyRest, List.append_assoc]
    exact endsNumber_newLine level _
  | cons x xs =>
    rw [prettyRest]
    exact endsNumber_comma _

theorem endsNumber_prettyFields (level : Nat) (fs : List (String × Json)) (cs : List Char) :
    EndsNumber (prettyFields level fs ++ cs) := by
  cases fs with
  | nil =>
    rw [prettyFields, List.append_assoc]
    exact endsNumber_newLine level _
  | cons f fs =>
    obtain ⟨n, v⟩ := f
    rw [prettyFields]
    exact endsNumber_comma _

/-- A field name, its colon and the blank before the value. -/
theorem spells_name (n : String) {rest : List Char} {ts : List Token} (h : Spells rest ts) :
    Spells (stringText n ++ ':' :: ' ' :: rest) (.str n :: .colon :: ts) := by
  have hblank : Spells ([' '] ++ rest) ts := spells_blanks (List.forall_mem_singleton.mpr rfl) h
  exact spells_string n (spells_sign rfl hblank)

-- The recursion is that of the writer. The text after a value begins with a comma, a line end or
-- nothing, so it never goes on with a number.
mutual

/-- The text of a value has the tokens of the value as it is read again. -/
theorem spells_prettyAt : ∀ (j : Json) (level : Nat) (rest : List Char) (ts : List Token),
    j.HasJsonNumbers → EndsNumber rest → Spells rest ts →
      Spells (j.prettyAt level ++ rest) (j.reread.tokensOf ++ ts)
  | .null, _, _, _, _, _, h => by
    rw [prettyAt, reread, tokensOf]
    exact spells_word rfl h
  | .bool true, _, _, _, _, _, h => by
    rw [prettyAt, reread, tokensOf]
    exact spells_word rfl h
  | .bool false, _, _, _, _, _, h => by
    rw [prettyAt, reread, tokensOf]
    exact spells_word rfl h
  | .int n, _, _, _, hf, hr, h => by
    rw [prettyAt, reread, tokensOf]
    exact spells_int (hf.fitsWord n (by simp [scalars])) hr h
  | .double x, _, _, _, hf, hr, h => by
    rw [prettyAt, reread, tokensOf]
    exact spells_double (hf.isFinite x (by simp [scalars])) hr h
  | .str s, _, _, _, _, _, h => by
    rw [prettyAt, reread, tokensOf]
    exact spells_string s h
  | .arr [], _, _, _, _, _, h => by
    rw [prettyAt, reread, rereadList, tokensOf]
    exact spells_sign rfl (spells_sign rfl h)
  | .arr (x :: xs), level, rest, ts, hf, hr, h => by
    have hxs := spells_prettyRest xs level rest ts hf.of_cons.2 h
    have hx := spells_prettyAt x (level + 1) _ _ hf.of_cons.1 (endsNumber_prettyRest level xs rest)
      hxs
    simp only [prettyAt, reread, rereadList, tokensOf, List.cons_append, List.append_assoc]
    exact spells_sign rfl (spells_newLine _ hx)
  | .obj [], _, _, _, _, _, h => by
    rw [prettyAt, reread, rereadFields, tokensOf]
    exact spells_sign rfl (spells_sign rfl h)
  | .obj ((n, v) :: fs), level, rest, ts, hf, hr, h => by
    have hfs := spells_prettyFields fs level rest ts hf.of_field.2 h
    have hv := spells_prettyAt v (level + 1) _ _ hf.of_field.1
      (endsNumber_prettyFields level fs rest) hfs
    simp only [prettyAt, reread, rereadFields, tokensOf, List.cons_append, List.append_assoc]
    exact spells_sign rfl (spells_newLine _ (spells_name n hv))

theorem spells_prettyRest : ∀ (xs : List Json) (level : Nat) (rest : List Char) (ts : List Token),
    (arr xs).HasJsonNumbers → Spells rest ts →
      Spells (prettyRest level xs ++ rest) (tokensOfRest (rereadList xs) ++ ts)
  | [], level, rest, ts, _, h => by
    rw [prettyRest, rereadList, tokensOfRest, List.append_assoc]
    exact spells_newLine level (spells_sign rfl h)
  | x :: xs, level, rest, ts, hf, h => by
    have hxs := spells_prettyRest xs level rest ts hf.of_cons.2 h
    have hx := spells_prettyAt x (level + 1) _ _ hf.of_cons.1 (endsNumber_prettyRest level xs rest)
      hxs
    simp only [prettyRest, rereadList, tokensOfRest, List.cons_append, List.append_assoc]
    exact spells_sign rfl (spells_newLine _ hx)

theorem spells_prettyFields : ∀ (fs : List (String × Json)) (level : Nat) (rest : List Char)
    (ts : List Token), (obj fs).HasJsonNumbers → Spells rest ts →
      Spells (prettyFields level fs ++ rest) (tokensOfFields (rereadFields fs) ++ ts)
  | [], level, rest, ts, _, h => by
    rw [prettyFields, rereadFields, tokensOfFields, List.append_assoc]
    exact spells_newLine level (spells_sign rfl h)
  | (n, v) :: fs, level, rest, ts, hf, h => by
    have hfs := spells_prettyFields fs level rest ts hf.of_field.2 h
    have hv := spells_prettyAt v (level + 1) _ _ hf.of_field.1
      (endsNumber_prettyFields level fs rest) hfs
    simp only [prettyFields, rereadFields, tokensOfFields, List.cons_append, List.append_assoc]
    exact spells_sign rfl (spells_newLine _ (spells_name n hv))

end

end SourceAudit.Json
