import SourceAudit.Linter.Output
import SourceAudit.Proofs.Json.Spelling
import SourceAudit.Proofs.Text.Trim

/-!
A score on the output of the linter. The messages are the whole of the output, so a score phrase
behind them makes the output malformed, and one that stands where they are absent is read as the
messages itself. The score of such a phrase is found on the error output only
(`score_behind_messages`).
-/

namespace SourceAudit.Linter

open SourceAudit.Text (isBlank trimChars)

/-! ### Score phrases -/

theorem phraseAt?_start {c : Char} {cs : List Char} {n : Numeral}
    (h : phraseAt? (c :: cs) = some n) : c = 'r' := by
  by_contra hc
  have hword : afterWord? "rated at".toList (c :: cs) = none := if_neg (Ne.symm hc)
  rw [phraseAt?, hword] at h
  cases h

theorem mem_of_firstPhrase? {cs : List Char} {n : Numeral} (h : firstPhrase? cs = some n) :
    'r' ∈ cs := by
  induction cs with
  | nil => cases h
  | cons c cs ih =>
    rw [firstPhrase?] at h
    split at h
    · rename_i hphrase
      rw [phraseAt?_start hphrase]
      exact List.mem_cons_self
    · exact List.mem_cons_of_mem c (ih h)

theorem isBlank_r : isBlank 'r' = false := Text.isBlank_of_visible (by decide) (by decide)

theorem isBlank_newline : isBlank '\n' = true := by decide +kernel

/-- A blank text is blank with the end of its line. -/
theorem isBlank_of_line {cs : List Char} (h : trimChars cs = []) :
    ∀ c ∈ cs ++ ['\n'], isBlank c = true := by
  intro c hc
  rcases List.mem_append.mp hc with hc | hc
  · exact Text.trimChars_eq_nil.mp h c hc
  · rw [List.mem_singleton.mp hc]
    exact isBlank_newline

theorem firstPhrase?_blanks {bs : List Char} (hbs : ∀ c ∈ bs, isBlank c = true) (cs : List Char) :
    firstPhrase? (bs ++ cs) = firstPhrase? cs := by
  induction bs with
  | nil => rfl
  | cons b bs ih =>
    have hnone : phraseAt? (b :: (bs ++ cs)) = none := by
      apply Option.eq_none_iff_forall_ne_some.mpr
      intro n hphrase
      have hblank := hbs b List.mem_cons_self
      rw [phraseAt?_start hphrase, isBlank_r] at hblank
      cases hblank
    rw [List.cons_append, firstPhrase?, hnone]
    exact ih fun c hc => hbs c (List.mem_cons_of_mem b hc)

theorem mem_of_score? {cs : List Char} {x : Number.Binary64} (h : score? cs = some x) :
    'r' ∈ trimChars cs := by
  obtain ⟨n, hphrase, -⟩ := Option.bind_eq_some_iff.mp h
  exact Text.mem_trimChars (mem_of_firstPhrase? hphrase) isBlank_r

/-! ### Messages -/

theorem messages?_eq_some {text : List Char} {messages : List Message}
    (h : messages? text = some messages) :
    ∃ ds, Json.Document.parse? text = some (.arr ds) ∧
      ds.mapM Message.ofDocument? = some messages := by
  unfold messages? at h
  split at h
  · rename_i ds hparse
    exact ⟨ds, hparse, h⟩
  · cases h

/-- A text with a score phrase is no empty list of messages. -/
theorem messages?_ne_nil {text : List Char} (h : 'r' ∈ text) : messages? text ≠ some [] := by
  intro hnil
  obtain ⟨ds, hparse, hmap⟩ := messages?_eq_some hnil
  have hds : ds = [] := by
    cases ds with
    | nil => rfl
    | cons d ds => simp [List.mapM_cons, Option.bind_eq_some_iff] at hmap
  rw [hds] at hparse
  rcases Json.mem_of_parse?_nil hparse h with hr | hr | hr
  all_goals exact absurd hr (by decide)

theorem endsNumber_of_blank {cs : List Char} (h : ∀ c ∈ cs.head?, isBlank c = true) :
    Json.EndsNumber cs := by
  intro c hc
  have hblank := h c hc
  have hvisible : ¬ (0x20 < c.toNat ∧ c.toNat < 0x7F) := by
    rintro ⟨hlow, hhigh⟩
    rw [Text.isBlank_of_visible hlow hhigh] at hblank
    cases hblank
  refine ⟨?_, ?_, ?_, ?_⟩
  · by_contra hdigit
    obtain ⟨hlow, hhigh⟩ : '0' ≤ c ∧ c ≤ '9' := by simpa [Json.isDigit] using hdigit
    have hlow' : 48 ≤ c.toNat := hlow
    have hhigh' : c.toNat ≤ 57 := hhigh
    omega
  all_goals
    rintro rfl
    exact hvisible (by decide)

theorem outputMessages?_of_ne_nil {out : List Char} (h : trimChars out ≠ []) :
    outputMessages? out = messages? (trimChars out) := by
  rw [outputMessages?, if_neg (by simpa using h)]

/-- Nothing but white space may stand behind the messages. -/
theorem outputMessages?_behind {j s : List Char} {messages : List Message} {c : Char}
    (hj : trimChars j ≠ []) (h : outputMessages? j = some messages)
    (hc : c ∈ trimChars s) (hblank : Json.isBlank c = false) :
    outputMessages? (j ++ '\n' :: s) = none := by
  rw [outputMessages?_of_ne_nil hj] at h
  obtain ⟨ds, hparse, -⟩ := messages?_eq_some h
  obtain ⟨before, after, hbefore, htrim⟩ :=
    Text.trimChars_append '\n' hj (List.ne_nil_of_mem hc)
  -- A number at the end of the messages cannot go on: white space comes next.
  have hends : Json.EndsNumber (before ++ '\n' :: (after ++ trimChars s)) := by
    apply endsNumber_of_blank
    intro d hd
    cases before with
    | nil =>
      cases hd
      exact isBlank_newline
    | cons b before =>
      obtain rfl : b = d := Option.some.inj hd
      exact hbefore b List.mem_cons_self
  have hnone := Json.parse?_behind hparse hends (c := c) (by simp [hc]) hblank
  rw [outputMessages?_of_ne_nil (by simp [htrim]), htrim, messages?, hnone]

/-! ### Scores on the output -/

/-- Where messages are absent, a score phrase is read as the messages. -/
theorem readOutput?_blank {j s : List Char} {x : Number.Binary64} (hj : trimChars j = [])
    (hs : score? s = some x) :
    readOutput? (j ++ '\n' :: s) [] =
      (messages? (trimChars s)).map fun found => ⟨found, some x⟩ := by
  have hsplit : j ++ '\n' :: s = (j ++ ['\n']) ++ s := by simp
  have hblank := isBlank_of_line hj
  have htrim : trimChars (j ++ '\n' :: s) = trimChars s := by
    rw [hsplit, Text.trimChars_blanks hblank]
  have hscore : score? (j ++ '\n' :: s) = some x := by
    rw [← hs, hsplit, score?, firstPhrase?_blanks hblank, ← score?]
  have hne : trimChars (j ++ '\n' :: s) ≠ [] := by
    rw [htrim]
    exact List.ne_nil_of_mem (mem_of_score? hs)
  rw [readOutput?, outputMessages?_of_ne_nil hne, htrim, hscore]
  rfl

/-- A score phrase on the error output is found, and one behind the messages never is: it makes the
output malformed, or takes the place of the messages if there are none. -/
theorem score_behind_messages {j s : List Char} {messages : List Message} {x : Number.Binary64}
    (hj : readOutput? j [] = some ⟨messages, none⟩) (hs : score? s = some x) :
    readOutput? j s = some ⟨messages, some x⟩ ∧
    (trimChars j ≠ [] → readOutput? (j ++ '\n' :: s) [] = none) ∧
    (trimChars j = [] → readOutput? (j ++ '\n' :: s) [] =
      (messages? (trimChars s)).map fun found => ⟨found, some x⟩) ∧
    readOutput? (j ++ '\n' :: s) [] ≠ some ⟨messages, some x⟩ := by
  obtain ⟨found, hmessages, heq⟩ := Option.map_eq_some_iff.mp hj
  obtain rfl : found = messages := congrArg Outcome.messages heq
  have hr : 'r' ∈ trimChars s := mem_of_score? hs
  have hbehind : trimChars j ≠ [] → readOutput? (j ++ '\n' :: s) [] = none := by
    intro hne
    rw [readOutput?, outputMessages?_behind hne hmessages hr (by decide), Option.map_none]
  refine ⟨?_, hbehind, fun hnil => readOutput?_blank hnil hs, ?_⟩
  · rw [readOutput?, hmessages, hs]
    rfl
  · by_cases hnil : trimChars j = []
    · have hempty : found = [] := by
        rw [outputMessages?, hnil] at hmessages
        exact (Option.some.inj hmessages).symm
      rw [readOutput?_blank hnil hs, hempty]
      intro hsome
      obtain ⟨_, hread, hsame⟩ := Option.map_eq_some_iff.mp hsome
      cases hsame
      exact messages?_ne_nil hr hread
    · rw [hbehind hnil]
      exact nofun

/-- An output with one message. -/
def errorOutput : List Char := "[\x7b\"type\": \"error\", \"line\": 3\x7d]".toList

/-- The line of a score. -/
def scoreLine : List Char := "Your code has been rated at 6.67/10".toList

theorem errorOutput_scored :
    readOutput? errorOutput [] = some ⟨[{ category := "error", line := some 3 }], none⟩ ∧
      score? scoreLine = some ⟨0x401aae147ae147ae⟩ ∧
      readOutput? errorOutput scoreLine =
        some ⟨[{ category := "error", line := some 3 }], some ⟨0x401aae147ae147ae⟩⟩ ∧
      readOutput? (errorOutput ++ '\n' :: scoreLine) [] = none := by
  have hmessages :
      readOutput? errorOutput [] = some ⟨[{ category := "error", line := some 3 }], none⟩ := by
    decide +kernel
  have hscore : score? scoreLine = some ⟨0x401aae147ae147ae⟩ := by decide +kernel
  obtain ⟨hscored, hbehind, -, -⟩ := score_behind_messages hmessages hscore
  exact ⟨hmessages, hscore, hscored, hbehind (by decide +kernel)⟩

/-- No messages, and the score that the same output gives them: the output is malformed. -/
theorem scoreLine_malformed :
    readOutput? "[]".toList [] = some ⟨[], none⟩ ∧ score? scoreLine = some ⟨0x401aae147ae147ae⟩ ∧
      readOutput? ("[]".toList ++ '\n' :: scoreLine) [] = none := by
  decide +kernel

end SourceAudit.Linter
