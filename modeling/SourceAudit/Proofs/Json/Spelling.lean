import SourceAudit.Proofs.Json.Read

/-!
Documents and the texts that they were read from. Reading loses nothing: the tokens of a document
are those that were read (`ofTokens?_tokens`). The tokens of a text do not depend on what follows,
as long as that does not go on with a number (`tokensUpTo_append`), so a text that spells a document
spells none with anything but blanks behind it (`parse?_behind`).
-/

namespace SourceAudit.Json

/-! ### The tokens of a document -/

/-- The token of a field name; one that is not sound is broken. -/
def nameToken : Option String → Token
  | some n => .str n
  | none => .brokenStr

namespace Document

mutual

/-- The tokens of a document. -/
def tokens : Document → List Token
  | .scalar t => [t]
  | .arr [] => [.openArray, .closeArray]
  | .arr (d :: ds) => .openArray :: (d.tokens ++ tokensRest ds)
  | .obj [] => [.openObject, .closeObject]
  | .obj ((n, d) :: fs) => .openObject :: nameToken n :: .colon :: (d.tokens ++ tokensFields fs)

/-- The tokens of the elements after the first one and of the end of the array. -/
def tokensRest : List Document → List Token
  | [] => [.closeArray]
  | d :: ds => .comma :: (d.tokens ++ tokensRest ds)

/-- The tokens of the fields after the first one and of the end of the object. -/
def tokensFields : List (Option String × Document) → List Token
  | [] => [.closeObject]
  | (n, d) :: fs => .comma :: nameToken n :: .colon :: (d.tokens ++ tokensFields fs)

end

/-- Elements of an array that goes on after them. -/
def elementsSpelled (ds : List Document) : List Token := ds.flatMap fun d => d.tokens ++ [.comma]

/-- Fields of an object that goes on after them. -/
def fieldsSpelled (fs : List (Option String × Document)) : List Token :=
  fs.flatMap fun f => nameToken f.1 :: .colon :: (f.2.tokens ++ [.comma])

theorem tokensRest_concat (ds : List Document) (d : Document) :
    tokensRest (ds ++ [d]) = .comma :: (elementsSpelled ds ++ (d.tokens ++ [.closeArray])) := by
  induction ds with
  | nil => rfl
  | cons e ds ih =>
    rw [List.cons_append, tokensRest, ih]
    simp [elementsSpelled]

theorem tokens_arr_concat (ds : List Document) (d : Document) :
    (arr (ds ++ [d])).tokens =
      .openArray :: (elementsSpelled ds ++ (d.tokens ++ [.closeArray])) := by
  cases ds with
  | nil => rfl
  | cons e ds =>
    rw [List.cons_append, tokens, tokensRest_concat]
    simp [elementsSpelled]

theorem tokensFields_concat (fs : List (Option String × Document)) (n : Option String)
    (d : Document) :
    tokensFields (fs ++ [(n, d)]) =
      .comma :: (fieldsSpelled fs ++ (nameToken n :: .colon :: (d.tokens ++ [.closeObject]))) := by
  induction fs with
  | nil => rfl
  | cons f fs ih =>
    rw [List.cons_append, tokensFields, ih]
    simp [fieldsSpelled]

theorem tokens_obj_concat (fs : List (Option String × Document)) (n : Option String)
    (d : Document) :
    (obj (fs ++ [(n, d)])).tokens =
      .openObject ::
        (fieldsSpelled fs ++ (nameToken n :: .colon :: (d.tokens ++ [.closeObject]))) := by
  cases fs with
  | nil => rfl
  | cons f fs =>
    rw [List.cons_append, tokens, tokensFields_concat]
    simp [fieldsSpelled]

end Document

open Document (elementsSpelled fieldsSpelled)

/-! ### The tokens of a reader's state -/

def Frame.spelled : Frame → List Token
  | .array done => .openArray :: elementsSpelled done.reverse
  | .object done n => .openObject :: (fieldsSpelled done.reverse ++ [nameToken n, .colon])

def Expect.spelled : Expect → List Token
  | .value | .firstElement => []
  | .firstName => [.openObject]
  | .name fields => .openObject :: fieldsSpelled fields.reverse
  | .colon fields n => .openObject :: (fieldsSpelled fields.reverse ++ [nameToken n])
  | .after v => v.tokens

def framesSpelled (frames : List Frame) : List Token := frames.reverse.flatMap Frame.spelled

/-- The tokens that a state was read from. -/
def ReaderState.spelled (s : ReaderState) : List Token := framesSpelled s.frames ++ s.expect.spelled

theorem framesSpelled_cons (f : Frame) (frames : List Frame) :
    framesSpelled (f :: frames) = framesSpelled frames ++ f.spelled := by
  simp [framesSpelled]

/-- Where a first element may come, an array has just begun. -/
def ReaderState.Begun (s : ReaderState) : Prop :=
  match s.expect with
  | .firstElement => ∃ frames, s.frames = .array [] :: frames
  | _ => True

/-- A token has been read: it is the last one of the new state. -/
structure Reads (before : List Token) (t : Token) (s : ReaderState) : Prop where
  spelled : s.spelled = before ++ [t]
  begun : s.Begun

theorem readValue_reads {frames : List Frame} {t : Token} {s : ReaderState}
    (h : readValue frames t = some s) : Reads (framesSpelled frames) t s := by
  cases t with
  | closeArray | closeObject | comma | colon => cases h
  | openArray =>
    cases h
    refine ⟨?_, ⟨frames, rfl⟩⟩
    simp [ReaderState.spelled, framesSpelled_cons, Frame.spelled, Expect.spelled, elementsSpelled]
  | openObject =>
    cases h
    exact ⟨rfl, trivial⟩
  | null | bool | int | double | str | brokenStr =>
    cases h
    exact ⟨rfl, trivial⟩

theorem readName_reads {frames : List Frame} {done : List (Option String × Document)} {t : Token}
    {s : ReaderState} (h : readName frames done t = some s) :
    Reads (framesSpelled frames ++ .openObject :: fieldsSpelled done.reverse) t s := by
  unfold readName at h
  split at h
  · cases h
    refine ⟨?_, trivial⟩
    simp [ReaderState.spelled, Expect.spelled, nameToken]
  · cases h
    refine ⟨?_, trivial⟩
    simp [ReaderState.spelled, Expect.spelled, nameToken]
  · cases h

theorem readAfter_reads {v : Document} {frames : List Frame} {t : Token} {s : ReaderState}
    (h : readAfter v frames t = some s) : Reads (framesSpelled frames ++ v.tokens) t s := by
  unfold readAfter at h
  split at h
  · cases h
    refine ⟨?_, trivial⟩
    simp [ReaderState.spelled, framesSpelled_cons, Frame.spelled, Expect.spelled, elementsSpelled]
  · cases h
    refine ⟨?_, trivial⟩
    simp [ReaderState.spelled, framesSpelled_cons, Frame.spelled, Expect.spelled,
      Document.tokens_arr_concat]
  · cases h
    refine ⟨?_, trivial⟩
    simp [ReaderState.spelled, framesSpelled_cons, Frame.spelled, Expect.spelled, fieldsSpelled]
  · cases h
    refine ⟨?_, trivial⟩
    simp [ReaderState.spelled, framesSpelled_cons, Frame.spelled, Expect.spelled,
      Document.tokens_obj_concat]
  · cases h

theorem readStep_reads {s s' : ReaderState} {t : Token} (hs : s.Begun)
    (h : readStep s t = some s') : Reads s.spelled t s' := by
  obtain ⟨frames, expect⟩ := s
  cases expect with
  | value =>
    rw [ReaderState.spelled, Expect.spelled, List.append_nil]
    exact readValue_reads h
  | firstElement =>
    obtain ⟨rest, rfl⟩ : ∃ rest, frames = .array [] :: rest := hs
    rw [ReaderState.spelled, Expect.spelled, List.append_nil]
    simp only [readStep] at h
    split at h
    · rename_i hframes
      cases hframes
      cases h
      refine ⟨?_, trivial⟩
      simp [ReaderState.spelled, framesSpelled_cons, Frame.spelled, Expect.spelled,
        elementsSpelled, Document.tokens]
    · exact readValue_reads h
  | firstName =>
    simp only [readStep] at h
    split at h
    · cases h
      refine ⟨?_, trivial⟩
      simp [ReaderState.spelled, Expect.spelled, Document.tokens]
    · exact readName_reads h
  | name done => exact readName_reads h
  | colon done n =>
    simp only [readStep] at h
    split at h
    · cases h
      refine ⟨?_, trivial⟩
      simp [ReaderState.spelled, framesSpelled_cons, Frame.spelled, Expect.spelled]
    · cases h
  | after v => exact readAfter_reads h

theorem readAll_spelled {ts : List Token} {s s' : ReaderState} (hs : s.Begun)
    (h : readAll s ts = some s') : s'.spelled = s.spelled ++ ts := by
  induction ts generalizing s with
  | nil =>
    cases h
    rw [List.append_nil]
  | cons t ts ih =>
    rw [readAll] at h
    split at h
    · cases h
    · rename_i s₁ hstep
      obtain ⟨hspelled, hbegun⟩ := readStep_reads hs hstep
      rw [ih hbegun h, hspelled, List.append_assoc]
      rfl

/-- The tokens of a document are those that it was read from. -/
theorem ofTokens?_tokens {ts : List Token} {d : Document} (h : Document.ofTokens? ts = some d) :
    d.tokens = ts := by
  unfold Document.ofTokens? at h
  split at h
  · rename_i v hall
    cases h
    have hspelled := readAll_spelled (s := ⟨[], .value⟩) trivial hall
    simpa [ReaderState.spelled, framesSpelled, Expect.spelled] using hspelled
  · cases h

/-! ### More tokens than a document has -/

theorem readAll_append (s : ReaderState) (ts us : List Token) :
    readAll s (ts ++ us) = (readAll s ts).bind fun s' => readAll s' us := by
  induction ts generalizing s with
  | nil => rfl
  | cons t ts ih =>
    rw [List.cons_append, readAll, readAll]
    cases readStep s t with
    | none => rfl
    | some s' => exact ih s'

/-- A complete document cannot go on. -/
theorem ofTokens?_append {ts us : List Token} {d : Document} (h : Document.ofTokens? ts = some d)
    (hus : us ≠ []) : Document.ofTokens? (ts ++ us) = none := by
  unfold Document.ofTokens? at h
  split at h
  · rename_i v hall
    cases us with
    | nil => exact absurd rfl hus
    | cons u us =>
      have hstep : readStep ⟨[], .after v⟩ u = none := by simp [readStep, readAfter]
      have hnone : readAll ⟨[], .value⟩ (ts ++ u :: us) = none := by
        rw [readAll_append, hall, Option.bind_some, readAll, hstep]
      rw [Document.ofTokens?, hnone]
  · cases h

/-! ### Texts with something behind them -/

/-- A second half of a surrogate pair is looked for no further than the string goes. -/
theorem lowSurrogate?_append {sound : Bool} {high : Option Nat} {done cs : List Char}
    {r : Token × List Char} (h : readString sound high done cs = some r) (rest : List Char) :
    lowSurrogate? (cs ++ rest) = lowSurrogate? cs := by
  unfold readString at h
  split at h
  · cases h
  · rfl
  · rfl
  · rename_i c cs hshort
    have hc : c ≠ 'u' := by
      rintro rfl
      cases h
    simp [lowSurrogate?, hc]
  · rename_i c cs _ _ _
    split at h
    · cases h
    · rename_i hplain
      have hc : c ≠ '\\' := by
        rintro rfl
        simp at hplain
      simp [lowSurrogate?, hc]

/-- What is read of a string does not depend on what follows it. -/
theorem readString_append {sound : Bool} {high : Option Nat} {done cs r : List Char} {t : Token}
    (h : readString sound high done cs = some (t, r)) (rest : List Char) :
    readString sound high done (cs ++ rest) = some (t, r ++ rest) := by
  fun_induction readString sound high done cs with
  | case1 => cases h
  | case2 =>
    cases h
    rfl
  | case3 => cases h
  | case4 sound done a b c d cs n hcode k ih =>
    simp only [List.cons_append, readString, hcode]
    exact ih h
  | case5 sound done a b c d cs n hcode hlow ih =>
    simp only [List.cons_append, readString, hcode]
    rw [if_pos hlow]
    exact ih h
  | case6 sound done a b c d cs n hcode hlow hhigh hpair ih =>
    simp only [List.cons_append, readString, hcode, lowSurrogate?_append h]
    rw [if_neg hlow, if_pos hhigh, if_pos hpair]
    exact ih h
  | case7 sound done a b c d cs n hcode hlow hhigh hpair ih =>
    simp only [List.cons_append, readString, hcode, lowSurrogate?_append h]
    rw [if_neg hlow, if_pos hhigh, if_neg hpair]
    exact ih h
  | case8 sound done a b c d cs n hcode hlow hhigh ih =>
    simp only [List.cons_append, readString, hcode]
    rw [if_neg hlow, if_neg hhigh]
    exact ih h
  | case9 sound high done e cs hshort d hescape ih =>
    have he : e ≠ 'u' := by
      rintro rfl
      cases hescape
    simp only [List.cons_append, readString, hescape, he, false_implies, implies_true]
    exact ih h
  | case10 => cases h
  | case11 => cases h
  | case12 sound high done c cs hquote hcode hescape hplain ih =>
    obtain ⟨hcontrol, hc⟩ : ¬ c.toNat < 32 ∧ c ≠ '\\' := by simpa using hplain
    rw [List.cons_append, readString_plain hquote hc hcontrol]
    exact ih h

theorem dropWord?_append_rest {w cs r : List Char} (h : dropWord? w cs = some r)
    (rest : List Char) : dropWord? w (cs ++ rest) = some (r ++ rest) := by
  induction w generalizing cs with
  | nil =>
    cases h
    rfl
  | cons a w ih =>
    cases cs with
    | nil => cases h
    | cons c cs =>
      rw [dropWord?] at h
      split at h
      · rename_i hac
        rw [List.cons_append, dropWord?, if_pos hac]
        exact ih h
      · cases h

/-- What is read of a token does not depend on what follows it. -/
theorem readToken_append_rest {rest : List Char} (hrest : EndsNumber rest) {c : Char}
    {cs r : List Char} {t : Token} (h : readToken c cs = some (t, r)) :
    readToken c (cs ++ rest) = some (t, r ++ rest) := by
  by_cases hnumber : c = '-' ∨ isDigit c = true
  · exact readToken_append hrest hnumber h
  · obtain ⟨hminus, hdigit⟩ := not_or.mp hnumber
    unfold readToken at h ⊢
    split at h
    · rename_i hquote
      rw [if_pos hquote]
      exact readString_append h rest
    · rename_i hquote
      rw [if_neg hquote, if_neg hminus, if_neg hdigit]
      split at h
      · cases h
      · obtain ⟨r', hdrop, heq⟩ := Option.map_eq_some_iff.mp h
        cases heq
        rw [dropWord?_append_rest hdrop]
        rfl

/-- The tokens of a text in two parts, the first of which has tokens of its own. -/
theorem tokensUpTo_append {rest : List Char} (hrest : EndsNumber rest) {fuel more : Nat}
    {cs : List Char} {ts us : List Token} (h : tokensUpTo fuel cs = some ts)
    (hall : tokensUpTo more (cs ++ rest) = some us) :
    ∃ left vs, tokensUpTo left rest = some vs ∧ us = ts ++ vs := by
  induction fuel generalizing more cs ts us with
  | zero =>
    cases cs with
    | nil =>
      cases h
      exact ⟨more, us, hall, rfl⟩
    | cons c cs => cases h
  | succ fuel ih =>
    cases cs with
    | nil =>
      cases h
      exact ⟨more, us, hall, rfl⟩
    | cons c cs =>
      cases more with
      | zero => cases hall
      | succ more =>
        rw [tokensUpTo] at h
        rw [List.cons_append, tokensUpTo] at hall
        split at h
        · rename_i hblank
          rw [if_pos hblank] at hall
          exact ih h hall
        · rename_i hblank
          rw [if_neg hblank] at hall
          split at h
          · cases h
          · rename_i t r hread
            obtain ⟨ts', hts, rfl⟩ := Option.map_eq_some_iff.mp h
            rw [readToken_append_rest hrest hread] at hall
            obtain ⟨us', hus, rfl⟩ := Option.map_eq_some_iff.mp hall
            obtain ⟨left, vs, hvs, rfl⟩ := ih hts hus
            exact ⟨left, vs, hvs, rfl⟩

/-! ### Texts of marks -/

/-- Brackets, braces, commas and colons. -/
def Token.isMark : Token → Bool
  | .openArray | .closeArray | .openObject | .closeObject | .comma | .colon => true
  | _ => false

theorem readString_isMark {sound : Bool} {high : Option Nat} {done cs r : List Char} {t : Token} :
    readString sound high done cs = some (t, r) → t.isMark = false := by
  fun_induction readString sound high done cs with
  | case1 | case3 | case10 | case11 =>
    intro h
    cases h
  | case2 sound =>
    intro h
    cases h
    cases sound <;> rfl
  | case4 | case5 | case6 | case7 | case8 | case9 | case12 => assumption

theorem readNumber_isMark {negative : Bool} {cs r : List Char} {t : Token}
    (h : readNumber negative cs = some (t, r)) : t.isMark = false := by
  unfold readNumber at h
  split at h
  · cases h
  split at h
  · cases h
  split at h
  · cases h
  simp only at h
  split at h
  · cases h
    unfold integerToken
    split
    · rfl
    · split <;> rfl
  · obtain ⟨_, -, heq⟩ := Option.map_eq_some_iff.mp h
    cases heq
    rfl

theorem wordFrom?_mark {c : Char} {w : List Char} {t : Token} (h : wordFrom? c = some (w, t))
    (ht : t.isMark = true) : w = [] := by
  unfold wordFrom? at h
  split at h
  case h_1 | h_2 | h_3 | h_4 | h_5 | h_6 =>
    cases h
    rfl
  case h_7 | h_8 | h_9 =>
    cases h
    cases ht
  case h_10 => cases h

/-- A mark takes the character that it is written with, and no other. -/
theorem readToken_mark {c : Char} {cs r : List Char} {t : Token}
    (h : readToken c cs = some (t, r)) (ht : t.isMark = true) :
    wordFrom? c = some ([], t) ∧ r = cs := by
  unfold readToken at h
  split at h
  · exact absurd ht (by simp [readString_isMark h])
  split at h
  · exact absurd ht (by simp [readNumber_isMark h])
  split at h
  · exact absurd ht (by simp [readNumber_isMark h])
  split at h
  · cases h
  · rename_i w u hw
    obtain ⟨rest, hdrop, heq⟩ := Option.map_eq_some_iff.mp h
    cases heq
    obtain rfl := wordFrom?_mark hw ht
    cases hdrop
    exact ⟨hw, rfl⟩

/-- A text with no tokens but marks has no characters but theirs and blanks. -/
theorem tokensUpTo_marks {fuel : Nat} {cs : List Char} {ts : List Token}
    (h : tokensUpTo fuel cs = some ts) (hts : ∀ t ∈ ts, t.isMark = true) {c : Char} (hc : c ∈ cs) :
    isBlank c = true ∨ ∃ t ∈ ts, wordFrom? c = some ([], t) := by
  induction fuel generalizing cs ts with
  | zero =>
    cases cs with
    | nil => cases hc
    | cons c' cs => cases h
  | succ fuel ih =>
    cases cs with
    | nil => cases hc
    | cons c' cs =>
      rw [tokensUpTo] at h
      split at h
      · rename_i hblank
        rcases List.mem_cons.mp hc with rfl | hc
        · exact .inl hblank
        · exact ih h hts hc
      · split at h
        · cases h
        · rename_i t r hread
          obtain ⟨us, hus, rfl⟩ := Option.map_eq_some_iff.mp h
          obtain ⟨hword, rfl⟩ := readToken_mark hread (hts t (by simp))
          rcases List.mem_cons.mp hc with rfl | hc
          · exact .inr ⟨t, by simp, hword⟩
          · rcases ih hus (fun u hu => hts u (by simp [hu])) hc with hblank | ⟨u, hu, hword⟩
            · exact .inl hblank
            · exact .inr ⟨u, by simp [hu], hword⟩

/-- The text of an empty array has two characters and blanks. -/
theorem mem_of_parse?_nil {cs : List Char} (h : Document.parse? cs = some (.arr [])) {c : Char}
    (hc : c ∈ cs) : isBlank c = true ∨ c = '[' ∨ c = ']' := by
  obtain ⟨ts, hts, hd⟩ := Option.bind_eq_some_iff.mp h
  obtain rfl := ofTokens?_tokens hd
  rcases tokensUpTo_marks hts (by simp [Document.tokens, Token.isMark]) hc with hblank | hmark
  · exact .inl hblank
  · have hbracket : wordFrom? c = some ([], .openArray) ∨ wordFrom? c = some ([], .closeArray) := by
      simpa [Document.tokens] using hmark
    right
    unfold wordFrom? at hbracket
    split at hbracket
    case h_1 => exact .inl rfl
    case h_2 => exact .inr rfl
    all_goals simp at hbracket

/-- A text that spells a document spells none with more behind it than blanks. -/
theorem parse?_behind {cs rest : List Char} {d : Document} (h : Document.parse? cs = some d)
    (hrest : EndsNumber rest) {c : Char} (hc : c ∈ rest) (hblank : isBlank c = false) :
    Document.parse? (cs ++ rest) = none := by
  obtain ⟨ts, hts, hd⟩ := Option.bind_eq_some_iff.mp h
  cases hall : tokens? (cs ++ rest) with
  | none => rw [Document.parse?, hall, Option.bind_none]
  | some us =>
    obtain ⟨left, vs, hvs, rfl⟩ := tokensUpTo_append hrest hts hall
    have hne : vs ≠ [] := by
      rintro rfl
      rcases tokensUpTo_marks hvs (by simp) hc with hb | ⟨t, ht, -⟩
      · exact absurd hb (by simp [hblank])
      · cases ht
    rw [Document.parse?, hall, Option.bind_some, ofTokens?_append hd hne]

end SourceAudit.Json
