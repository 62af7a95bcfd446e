import SourceAudit.Audit.Sector
import SourceAudit.Proofs.Text.LetterCase

/-!
The sector of a text. The search goes through the lower case of the text, in which two characters
outside ASCII show as letters of ASCII. They spell no keyword: none has a `k` in it, and none ends
with an `i`, behind which a dot stands if it comes from a dotted capital. So a keyword is found
exactly where the text has its letters in either case (`infix_lowerFrom`), and the sector is the first
one that is mentioned so (`classify_eq_iff`).
-/

namespace SourceAudit.Audit

open SourceAudit.Text (SameLetters ascii_mem_lowerForm lowerCase lowerForm lowerFrom
  lowersTo_lowerIn toLower_eq_self)

theorem occurs_iff {word cs : List Char} : occurs word cs = true ↔ word <:+: cs := by
  induction cs with
  | nil => simp [occurs]
  | cons c cs ih =>
    rw [occurs, Bool.or_eq_true, ih, List.isPrefixOf_iff_prefix, List.infix_cons_iff]

/-- What does not hold a character is on one side of it. -/
theorem infix_of_infix_around {part before behind : List Char} {c : Char} (hc : c ∉ part)
    (h : part <:+: before ++ c :: behind) : part <:+: before ∨ part <:+: behind := by
  rcases List.infix_append_iff.mp h with h | h | ⟨front, back, rfl, hfront, hback⟩
  · exact .inl h
  · rcases List.infix_cons_iff.mp h with h | h
    · cases part with
      | nil => exact .inl List.nil_infix
      | cons d part =>
        obtain ⟨rfl, -⟩ := List.cons_prefix_cons.mp h
        exact absurd List.mem_cons_self hc
    · exact .inr h
  · cases back with
    | nil =>
      rw [List.append_nil]
      exact .inl hfront.isInfix
    | cons d back =>
      obtain ⟨rfl, -⟩ := List.cons_prefix_cons.mp hback
      exact absurd (by simp) hc

/-! ### Keywords in lower case -/

/-- A word that no character outside ASCII can help to spell. -/
structure Plain (word : List Char) : Prop where
  nonempty : word ≠ []
  ascii : ∀ c ∈ word, c.toNat < 128 ∧ c ≠ 'k'
  last : word.getLast? ≠ some 'i'

theorem plain_keyword : ∀ entry ∈ sectorKeywords, ∀ word ∈ entry.2, Plain word.toList := by
  have hall : ∀ entry ∈ sectorKeywords, ∀ word ∈ entry.2, word.toList ≠ [] ∧
      word.toList.all (fun c => c.toNat < 128 ∧ c ≠ 'k') = true ∧
      word.toList.getLast? ≠ some 'i' := by decide
  intro entry hentry word hword
  obtain ⟨hne, hascii, hlast⟩ := hall entry hentry word hword
  refine ⟨hne, ?_, hlast⟩
  intro c hc
  exact of_decide_eq_true (List.all_eq_true.mp hascii c hc)

/-- The keywords are written in small letters. -/
theorem map_toLower_keyword : ∀ entry ∈ sectorKeywords, ∀ word ∈ entry.2,
    word.toList.map Char.toLower = word.toList := by decide

theorem ne_toLower {w c : Char} (hc : 128 ≤ c.toNat) (hw : w.toNat < 128) : w ≠ c.toLower := by
  rw [toLower_eq_self hc]
  rintro rfl
  omega

/-- No word of ASCII begins with another character. -/
theorem not_prefix_foreign {word : List Char} (hne : word ≠ [])
    (hascii : ∀ c ∈ word, c.toNat < 128 ∧ c ≠ 'k') {d : Char} (hd : 128 ≤ d.toNat)
    (rest : List Char) : ¬ word <+: d :: rest := by
  obtain ⟨w, word, rfl⟩ := List.exists_cons_of_ne_nil hne
  intro h
  obtain ⟨rfl, -⟩ := List.cons_prefix_cons.mp h
  have hw := (hascii w (by simp)).1
  omega

/-- The letters at the front of the lower case are those at the front of the text, in either case. -/
theorem prefix_lowerFrom {word : List Char} (hascii : ∀ c ∈ word, c.toNat < 128 ∧ c ≠ 'k')
    (hlast : word.getLast? ≠ some 'i') (before text : List Char) :
    word <+: lowerFrom before text ↔ word <+: text.map Char.toLower := by
  induction word generalizing before text with
  | nil => simp
  | cons w word ih =>
    cases text with
    | nil => simp [lowerFrom]
    | cons c cs =>
      obtain ⟨⟨hw, hk⟩, hrestAscii⟩ := List.forall_mem_cons.mp hascii
      rw [lowerFrom, List.map_cons, List.cons_prefix_cons]
      have hlowers := lowersTo_lowerIn before c cs
      generalize Text.lowerIn before c cs = form at hlowers
      cases hlowers with
      | ascii _ =>
        rw [List.singleton_append, List.cons_prefix_cons, ih hrestAscii ?_ (c :: before) cs]
        intro hi
        exact hlast (by rw [List.getLast?_cons, hi]; rfl)
      | dotted =>
        refine iff_of_false ?_ fun h => ne_toLower (by decide) hw h.1
        intro h
        obtain ⟨rfl, hrest⟩ := List.cons_prefix_cons.mp h
        cases word with
        | nil => exact hlast rfl
        | cons d word =>
          -- Behind this `i` stands a dot, which no word has.
          exact not_prefix_foreign (List.cons_ne_nil d word) hrestAscii (by decide) _ hrest
      | kelvin =>
        refine iff_of_false ?_ fun h => ne_toLower (by decide) hw h.1
        intro h
        exact hk (List.cons_prefix_cons.mp h).1
      | foreign hc hd =>
        refine iff_of_false ?_ fun h => ne_toLower hc hw h.1
        exact not_prefix_foreign (List.cons_ne_nil w word) hascii hd _

/-- A plain word is in the lower case of a text exactly where its letters are, in either case. -/
theorem infix_lowerFrom {word : List Char} (hword : Plain word) (before text : List Char) :
    word <:+: lowerFrom before text ↔ word <:+: text.map Char.toLower := by
  induction text generalizing before with
  | nil => simp [lowerFrom]
  | cons c cs ih =>
    have hhere := prefix_lowerFrom hword.ascii hword.last before (c :: cs)
    rw [List.map_cons, List.infix_cons_iff, ← ih (c :: before), ← List.map_cons, ← hhere, lowerFrom]
    have hlowers := lowersTo_lowerIn before c cs
    generalize Text.lowerIn before c cs = form at hlowers
    cases hlowers with
    | ascii _ => rw [List.singleton_append, List.infix_cons_iff]
    | dotted =>
      have hdot : ¬ word <+: '\u0307' :: lowerFrom ('\u0130' :: before) cs :=
        not_prefix_foreign hword.nonempty hword.ascii (by decide) _
      simp only [List.cons_append, List.nil_append]
      rw [List.infix_cons_iff, List.infix_cons_iff, or_iff_right hdot]
    | kelvin => rw [List.singleton_append, List.infix_cons_iff]
    | foreign _ _ => rw [List.singleton_append, List.infix_cons_iff]

/-! ### The first sector -/

/-- The text has a keyword of the sector in it, in letters of either case. -/
def Mentions (text : List Char) (s : Sector) : Prop :=
  ∃ words word part, (s, words) ∈ sectorKeywords ∧ word ∈ words ∧ part <:+: text ∧
    SameLetters part word.toList

/-- Place of a sector in the order in which they are tried. -/
def Sector.rank : Sector → Nat
  | .education => 0
  | .health => 1
  | .environment => 2
  | .unknown => 3

/-- The sector is mentioned, or unknown, and none before it is mentioned. -/
structure FirstMentioned (text : List Char) (s : Sector) : Prop where
  mentioned : s = .unknown ∨ Mentions text s
  none_before : ∀ t, t.rank < s.rank → ¬ Mentions text t

theorem rank_injective {s t : Sector} (h : s.rank = t.rank) : s = t := by
  cases s <;> cases t <;> first | rfl | cases h

theorem rank_le_unknown (s : Sector) : s.rank ≤ Sector.unknown.rank := by
  cases s <;> decide

/-- Whether a keyword of an entry is found in the text. -/
def finds (text : List Char) (entry : Sector × List String) : Bool :=
  entry.2.any fun word => occurs word.toList (lowerCase text)

theorem classify_eq (text : List Char) :
    classify text = ((sectorKeywords.find? (finds text)).map Prod.fst).getD .unknown := by
  simp only [classify]
  split
  · rename_i s words hfound
    have hfind : sectorKeywords.find? (finds text) = some (s, words) := hfound
    rw [hfind]
    rfl
  · rename_i hnone
    have hfind : sectorKeywords.find? (finds text) = none := hnone
    rw [hfind]
    rfl

theorem finds_iff {text : List Char} {entry : Sector × List String}
    (hentry : entry ∈ sectorKeywords) :
    finds text entry = true ↔
      ∃ word ∈ entry.2, ∃ part, part <:+: text ∧ SameLetters part word.toList := by
  rw [finds, List.any_eq_true]
  refine exists_congr fun word => and_congr_right fun hword => ?_
  have hplain := plain_keyword entry hentry word hword
  rw [occurs_iff, lowerCase, infix_lowerFrom hplain, List.infix_map_iff]
  refine exists_congr fun part => and_congr_right fun _ => ?_
  rw [SameLetters, map_toLower_keyword entry hentry word hword, eq_comm]

theorem mentions_iff {text : List Char} {s : Sector} :
    Mentions text s ↔ ∃ entry ∈ sectorKeywords, entry.1 = s ∧ finds text entry = true := by
  constructor
  · rintro ⟨words, word, part, hentry, hword, hpart⟩
    exact ⟨(s, words), hentry, rfl, (finds_iff hentry).mpr ⟨word, hword, part, hpart⟩⟩
  · rintro ⟨entry, hentry, rfl, hfinds⟩
    obtain ⟨word, hword, part, hpart⟩ := (finds_iff hentry).mp hfinds
    exact ⟨entry.2, word, part, hentry, hword, hpart⟩

/-- The entries stand in the order of their sectors. -/
theorem sectorKeywords_ordered : sectorKeywords.Pairwise fun a b => a.1.rank < b.1.rank := by decide

theorem firstMentioned_classify (text : List Char) : FirstMentioned text (classify text) := by
  rw [classify_eq]
  cases hfind : sectorKeywords.find? (finds text) with
  | some entry =>
    obtain ⟨hfinds, before, behind, hsplit, hbefore⟩ := List.find?_eq_some_iff_append.mp hfind
    have hentry : entry ∈ sectorKeywords := List.mem_of_find?_eq_some hfind
    refine ⟨.inr (mentions_iff.mpr ⟨entry, hentry, rfl, hfinds⟩), ?_⟩
    intro t hlt hmentions
    obtain ⟨other, hother, rfl, hfindsOther⟩ := mentions_iff.mp hmentions
    have hordered := sectorKeywords_ordered
    rw [hsplit] at hother hordered
    rw [List.pairwise_append, List.pairwise_cons] at hordered
    rcases List.mem_append.mp hother with hother | hother
    · have hnot := hbefore other hother
      rw [hfindsOther] at hnot
      cases hnot
    · rcases List.mem_cons.mp hother with rfl | hother
      · exact Nat.lt_irrefl _ hlt
      · exact Nat.lt_asymm hlt (hordered.2.1.1 other hother)
  | none =>
    refine ⟨.inl rfl, ?_⟩
    intro t _ hmentions
    obtain ⟨entry, hentry, -, hfinds⟩ := mentions_iff.mp hmentions
    exact List.find?_eq_none.mp hfind entry hentry hfinds

theorem FirstMentioned.unique {text : List Char} {s t : Sector} (hs : FirstMentioned text s)
    (ht : FirstMentioned text t) : s = t := by
  have hle {a b : Sector} (ha : FirstMentioned text a) (hb : FirstMentioned text b) :
      a.rank ≤ b.rank := by
    rcases hb.mentioned with rfl | hmentions
    · exact rank_le_unknown a
    · exact Nat.le_of_not_lt fun hlt => ha.none_before b hlt hmentions
  exact rank_injective (Nat.le_antisymm (hle hs ht) (hle ht hs))

theorem classify_eq_iff {text : List Char} {s : Sector} :
    classify text = s ↔ FirstMentioned text s := by
  constructor
  · rintro rfl
    exact firstMentioned_classify text
  · exact (firstMentioned_classify text).unique

/-- The sector of a text is at most as far in the order as any that is mentioned. -/
theorem rank_classify_le {text : List Char} {s : Sector} (h : Mentions text s) :
    (classify text).rank ≤ s.rank :=
  Nat.le_of_not_lt fun hlt => (firstMentioned_classify text).none_before s hlt h

/-- What one text mentions and the other one, too, does not put its sector behind that of the other. -/
theorem rank_classify_mono {text more : List Char} (h : ∀ s, Mentions text s → Mentions more s) :
    (classify more).rank ≤ (classify text).rank := by
  rcases (firstMentioned_classify text).mentioned with hunknown | hmentions
  · rw [hunknown]
    exact rank_le_unknown _
  · exact rank_classify_le (h _ hmentions)

/-! ### Parts of a text -/

theorem Mentions.mono {text more : List Char} {s : Sector} (h : Mentions text s)
    (hmore : text <:+: more) : Mentions more s := by
  obtain ⟨words, word, part, hentry, hword, hpart, hsame⟩ := h
  exact ⟨words, word, part, hentry, hword, hpart.trans hmore, hsame⟩

/-- A character outside ASCII is in no part of a text that has the letters of a keyword. -/
theorem foreign_not_mem {c : Char} (hc : 128 ≤ c.toNat) {entry : Sector × List String}
    (hentry : entry ∈ sectorKeywords) {word : String} (hword : word ∈ entry.2) {part : List Char}
    (hsame : SameLetters part word.toList) : c ∉ part := by
  intro hmem
  have hletter : c ∈ word.toList := by
    rw [← map_toLower_keyword entry hentry word hword, ← hsame]
    exact List.mem_map.mpr ⟨c, hmem, toLower_eq_self hc⟩
  have hascii := ((plain_keyword entry hentry word hword).ascii c hletter).1
  omega

theorem mentions_foreign {c : Char} (hc : 128 ≤ c.toNat) {before behind : List Char} {s : Sector} :
    Mentions (before ++ c :: behind) s ↔ Mentions before s ∨ Mentions behind s := by
  constructor
  · rintro ⟨words, word, part, hentry, hword, hpart, hsame⟩
    have hnot := foreign_not_mem hc hentry hword hsame
    rcases infix_of_infix_around hnot hpart with hpart | hpart
    · exact .inl ⟨words, word, part, hentry, hword, hpart, hsame⟩
    · exact .inr ⟨words, word, part, hentry, hword, hpart, hsame⟩
  · rintro (h | h)
    · exact h.mono (List.prefix_append _ _).isInfix
    · exact h.mono (List.suffix_append_of_suffix (List.suffix_cons _ _)).isInfix

theorem rank_classify_foreign {c : Char} (hc : 128 ≤ c.toNat) (before behind : List Char) :
    (classify (before ++ c :: behind)).rank =
      min (classify before).rank (classify behind).rank := by
  apply Nat.le_antisymm
  · refine Nat.le_min.mpr ⟨rank_classify_mono ?_, rank_classify_mono ?_⟩
    · exact fun s h => (mentions_foreign hc).mpr (.inl h)
    · exact fun s h => (mentions_foreign hc).mpr (.inr h)
  · rcases (firstMentioned_classify (before ++ c :: behind)).mentioned with hunknown | hmentions
    · rw [hunknown]
      exact Nat.le_trans (Nat.min_le_left _ _) (rank_le_unknown _)
    · rcases (mentions_foreign hc).mp hmentions with h | h
      · exact Nat.le_trans (Nat.min_le_left _ _) (rank_classify_le h)
      · exact Nat.le_trans (Nat.min_le_right _ _) (rank_classify_le h)

/-- The sector of a text is the first one of which the text has a keyword in it, in letters of either
case, and unknown if there is none. A character outside ASCII takes no part in a keyword: the text
around it has the earlier one of the sectors of its two sides. This holds of the two characters, too,
whose lower case form has a letter of ASCII. With more text around it, a text has the same sector or
an earlier one. -/
theorem sector_by_keywords (text : List Char) :
    (∀ s, classify text = s ↔ FirstMentioned text s) ∧
    (∀ before c behind, text = before ++ c :: behind → 128 ≤ c.toNat →
      (classify text).rank = min (classify before).rank (classify behind).rank ∧
      ((∃ d ∈ lowerForm c, d.toNat < 128) ↔ c = '\u0130' ∨ c = '\u212a')) ∧
    (∀ before behind, (classify (before ++ text ++ behind)).rank ≤ (classify text).rank) := by
  refine ⟨fun s => classify_eq_iff, ?_, ?_⟩
  · rintro before c behind rfl hc
    exact ⟨rank_classify_foreign hc before behind, ascii_mem_lowerForm hc⟩
  · intro before behind
    exact rank_classify_mono fun s h => h.mono (List.infix_append before text behind)

/-- A text that would have a keyword in it if its dotted capital were the small letter. -/
def dottedText : List Char := "pat".toList ++ '\u0130' :: "ent in the STREET".toList

theorem dottedText_classified :
    128 ≤ '\u0130'.toNat ∧ 'i' ∈ lowerForm '\u0130' ∧ FirstMentioned dottedText .environment ∧
      (classify dottedText).rank =
        min (classify "pat".toList).rank (classify "ent in the STREET".toList).rank := by
  have hforeign : 128 ≤ '\u0130'.toNat := by decide
  have hsector : classify dottedText = .environment := by decide +kernel
  obtain ⟨hfirst, hsides, -⟩ := sector_by_keywords dottedText
  exact ⟨hforeign, by decide +kernel, (hfirst _).mp hsector, (hsides _ _ _ rfl hforeign).1⟩

end SourceAudit.Audit
