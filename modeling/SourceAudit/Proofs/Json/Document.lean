import SourceAudit.Proofs.Json.Reread

/-!
From tokens to values and back. The tokens of a value are put together to its document
(`ofTokens?_tokensOf`), and the document has the sorted value (`value?_documentOf`). Main statement:
the text of a value is read as the value with its fields in order and its doubles read again
(`parse?_prettyAt`).
-/

namespace SourceAudit.Json

mutual

/-- A value as a document. -/
def documentOf : Json → Document
  | .null => .scalar .null
  | .bool b => .scalar (.bool b)
  | .int n => .scalar (.int n)
  | .double x => .scalar (.double x)
  | .str s => .scalar (.str s)
  | .arr xs => .arr (documentsOf xs)
  | .obj fs => .obj (namedDocumentsOf fs)

def documentsOf : List Json → List Document
  | [] => []
  | x :: xs => x.documentOf :: documentsOf xs

def namedDocumentsOf : List (String × Json) → List (Option String × Document)
  | [] => []
  | (n, v) :: fs => (some n, v.documentOf) :: namedDocumentsOf fs

end

/-! ### Putting tokens together -/

theorem readAll_cons {s s' : ReaderState} {t : Token} (h : readStep s t = some s')
    (ts : List Token) : readAll s (t :: ts) = readAll s' ts := by
  rw [readAll, h]

theorem tokensOf_head (j : Json) : ∃ t ts, j.tokensOf = t :: ts ∧ t ≠ .closeArray := by
  cases j with
  | arr xs => cases xs <;> exact ⟨_, _, rfl, by simp⟩
  | obj fs => cases fs <;> exact ⟨_, _, rfl, by simp⟩
  | _ => exact ⟨_, _, rfl, by simp⟩

/-- Where an element must follow, the first element is read as any other. -/
theorem readAll_firstElement (j : Json) (done : List Document) (frames : List Frame)
    (ts : List Token) :
    readAll ⟨.array done :: frames, .firstElement⟩ (j.tokensOf ++ ts) =
      readAll ⟨.array done :: frames, .value⟩ (j.tokensOf ++ ts) := by
  obtain ⟨t, us, hj, ht⟩ := tokensOf_head j
  have hstep : readStep ⟨.array done :: frames, .firstElement⟩ t =
      readStep ⟨.array done :: frames, .value⟩ t := by
    cases t <;> simp_all [readStep]
  rw [hj, List.cons_append, readAll, readAll, hstep]

-- The frames below the value and the tokens after it are arbitrary, so that the recursion goes
-- through the containers.
mutual

theorem readAll_tokensOf : ∀ (j : Json) (frames : List Frame) (ts : List Token),
    readAll ⟨frames, .value⟩ (j.tokensOf ++ ts) = readAll ⟨frames, .after j.documentOf⟩ ts
  | .null, _, _ => rfl
  | .bool _, _, _ => rfl
  | .int _, _, _ => rfl
  | .double _, _, _ => rfl
  | .str _, _, _ => rfl
  | .arr [], _, _ => rfl
  | .arr (x :: xs), frames, ts => by
    rw [tokensOf, List.cons_append, List.append_assoc, readAll_cons rfl, readAll_firstElement,
      readAll_tokensOf x, readAll_tokensOfRest xs, documentOf, documentsOf]
    rfl
  | .obj [], _, _ => rfl
  | .obj ((n, v) :: fs), frames, ts => by
    rw [tokensOf]
    simp only [List.cons_append, List.append_assoc]
    rw [readAll_cons rfl, readAll_cons rfl, readAll_cons rfl, readAll_tokensOf v,
      readAll_tokensOfFields fs, documentOf, namedDocumentsOf]
    rfl

theorem readAll_tokensOfRest : ∀ (xs : List Json) (done : List Document) (v : Document)
    (frames : List Frame) (ts : List Token),
    readAll ⟨.array done :: frames, .after v⟩ (tokensOfRest xs ++ ts) =
      readAll ⟨frames, .after (.arr (done.reverse ++ v :: documentsOf xs))⟩ ts
  | [], done, v, frames, ts => by
    rw [tokensOfRest, List.cons_append, readAll_cons rfl, documentsOf, List.reverse_cons]
    rfl
  | x :: xs, done, v, frames, ts => by
    rw [tokensOfRest, List.cons_append, List.append_assoc, readAll_cons rfl, readAll_tokensOf x,
      readAll_tokensOfRest xs, documentsOf, List.reverse_cons, List.append_assoc]
    rfl

theorem readAll_tokensOfFields : ∀ (fs : List (String × Json))
    (done : List (Option String × Document)) (n : Option String) (v : Document)
    (frames : List Frame) (ts : List Token),
    readAll ⟨.object done n :: frames, .after v⟩ (tokensOfFields fs ++ ts) =
      readAll ⟨frames, .after (.obj (done.reverse ++ (n, v) :: namedDocumentsOf fs))⟩ ts
  | [], done, n, v, frames, ts => by
    rw [tokensOfFields, List.cons_append, readAll_cons rfl, namedDocumentsOf, List.reverse_cons]
    rfl
  | (m, w) :: fs, done, n, v, frames, ts => by
    rw [tokensOfFields]
    simp only [List.cons_append, List.append_assoc]
    rw [readAll_cons rfl, readAll_cons rfl, readAll_cons rfl, readAll_tokensOf w,
      readAll_tokensOfFields fs, namedDocumentsOf, List.reverse_cons, List.append_assoc]
    rfl

end

theorem ofTokens?_tokensOf (j : Json) : Document.ofTokens? j.tokensOf = some j.documentOf := by
  have h := readAll_tokensOf j [] []
  rw [List.append_nil, readAll] at h
  rw [Document.ofTokens?, h]

/-! ### The value of a written document -/

theorem values?_documentsOf {limit : Nat} {xs : List Json}
    (h : ∀ x ∈ xs, x.documentOf.value? limit = some x.sorted) :
    Document.values? limit (documentsOf xs) = some (sortedList xs) := by
  induction xs with
  | nil => rfl
  | cons x xs ih =>
    rw [documentsOf, Document.values?, h x (by simp)]
    simp only [ih fun y hy => h y (List.mem_cons_of_mem _ hy)]
    rfl

theorem fieldValues?_namedDocumentsOf {limit : Nat} {fs : List (String × Json)}
    (h : ∀ f ∈ fs, f.2.documentOf.value? limit = some f.2.sorted) (done : List (String × Json)) :
    Document.fieldValues? limit (namedDocumentsOf fs) done = some (sortedFields fs done) := by
  induction fs generalizing done with
  | nil => rfl
  | cons f fs ih =>
    obtain ⟨n, v⟩ := f
    rw [namedDocumentsOf, Document.fieldValues?, h (n, v) (by simp)]
    simp only [ih fun g hg => h g (List.mem_cons_of_mem _ hg)]
    rfl

theorem value?_documentOf (j : Json) {limit : Nat} (hd : j.depth ≤ limit)
    (hf : ∀ x, .double x ∈ j.scalars → x.isFinite = true) :
    j.documentOf.value? limit = some j.sorted := by
  induction j using inductionOn generalizing limit with
  | null => rfl
  | bool b => rfl
  | int n => rfl
  | str s => rfl
  | double x =>
    have hx := hf x (by simp [scalars])
    simp [documentOf, Document.value?, Document.scalarValue?, hx, sorted]
  | arr xs ih =>
    rw [depth] at hd
    cases limit with
    | zero => omega
    | succ limit =>
      rw [documentOf, Document.value?, values?_documentsOf, sorted]
      · rfl
      · intro x hx
        exact ih x hx (depthList_le_iff.mp (by omega) x hx)
          fun y hy => hf y (mem_scalarsList.mpr ⟨x, hx, hy⟩)
  | obj fs ih =>
    rw [depth] at hd
    cases limit with
    | zero => omega
    | succ limit =>
      rw [documentOf, Document.value?, fieldValues?_namedDocumentsOf, sorted]
      · rfl
      · intro f hmem
        exact ih f hmem (depthFields_le_iff.mp (by omega) f hmem)
          fun y hy => hf y (mem_scalarsFields.mpr ⟨f, hmem, hy⟩)

theorem endsNumber_blanks {bs : List Char} (h : ∀ c ∈ bs, isBlank c = true) : EndsNumber bs := by
  cases bs with
  | nil => exact endsNumber_nil
  | cons b bs =>
    have hb := h b (by simp)
    simp only [isBlank, Bool.or_eq_true, decide_eq_true_eq] at hb
    apply endsNumber_cons
    rcases hb with ((rfl | rfl) | rfl) | rfl <;> decide

/-- The text of a value, with blanks after it, is read as the value with its fields in order and its
doubles read again. -/
theorem parse?_prettyAt {j : Json} (hd : j.depth ≤ maxDepth) (hf : j.HasJsonNumbers)
    {bs : List Char} (hb : ∀ c ∈ bs, isBlank c = true) :
    parse? (j.prettyAt 0 ++ bs) = some j.reread.sorted := by
  have hblank : Spells bs [] := by
    have := spells_blanks hb spells_nil
    rwa [List.append_nil] at this
  have hspell := spells_prettyAt j 0 bs [] hf (endsNumber_blanks hb) hblank
  have htokens : tokens? (j.prettyAt 0 ++ bs) = some j.reread.tokensOf := by
    rw [List.append_nil] at hspell
    exact hspell _ (Nat.le_refl _)
  rw [parse?, Document.parse?, htokens, Option.bind_some, ofTokens?_tokensOf, Option.bind_some]
  exact value?_documentOf j.reread (by rwa [depth_reread]) hf.reread.isFinite

end SourceAudit.Json
