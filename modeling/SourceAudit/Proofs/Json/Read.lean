import SourceAudit.Proofs.Json.Document

/-!
What a value that was read is like: its fields increase, it nests at most `maxDepth` levels, and its
integers fit into 64 bits (`parse?_wellFormed`). The last needs what one token does to the scalars
of a reader's state (`readStep_leaves`) and, by induction, what a whole run does.
-/

namespace SourceAudit.Json

/-! ### The tokens inside documents -/

namespace Document

/-- Induction on documents, with the parts of a container at once. -/
@[elab_as_elim]
theorem inductionOn {P : Document → Prop} (scalar : ∀ t, P (.scalar t))
    (arr : ∀ ds, (∀ d ∈ ds, P d) → P (.arr ds))
    (obj : ∀ fs : List (Option String × Document), (∀ f ∈ fs, P f.2) → P (.obj fs))
    (d : Document) : P d :=
  document d
where
  document : ∀ d, P d
    | .scalar t => scalar t
    | .arr ds => arr ds (elements ds)
    | .obj fs => obj fs (fields fs)
  elements : ∀ ds : List Document, ∀ d ∈ ds, P d
    | [] => fun _ h => nomatch h
    | d :: ds => List.forall_mem_cons.mpr ⟨document d, elements ds⟩
  fields : ∀ fs : List (Option String × Document), ∀ f ∈ fs, P f.2
    | [] => fun _ h => nomatch h
    | (_, d) :: fs => List.forall_mem_cons.mpr ⟨document d, fields fs⟩

mutual

/-- The scalars of a document, in order. -/
def leaves : Document → List Token
  | .scalar t => [t]
  | .arr ds => leavesList ds
  | .obj fs => leavesFields fs

def leavesList : List Document → List Token
  | [] => []
  | d :: ds => d.leaves ++ leavesList ds

def leavesFields : List (Option String × Document) → List Token
  | [] => []
  | (_, d) :: fs => d.leaves ++ leavesFields fs

end

theorem mem_leavesList {t : Token} {ds : List Document} :
    t ∈ leavesList ds ↔ ∃ d ∈ ds, t ∈ d.leaves := by
  induction ds with
  | nil => simp [leavesList]
  | cons d ds ih => simp [leavesList, ih]

theorem mem_leavesFields {t : Token} {fs : List (Option String × Document)} :
    t ∈ leavesFields fs ↔ ∃ f ∈ fs, t ∈ f.2.leaves := by
  induction fs with
  | nil => simp [leavesFields]
  | cons f fs ih => simp [leavesFields, ih]

theorem mem_leavesList_reverse {t : Token} {ds : List Document} :
    t ∈ leavesList ds.reverse ↔ t ∈ leavesList ds := by
  simp [mem_leavesList]

theorem mem_leavesFields_reverse {t : Token} {fs : List (Option String × Document)} :
    t ∈ leavesFields fs.reverse ↔ t ∈ leavesFields fs := by
  simp [mem_leavesFields]

end Document

/-! ### The tokens inside a reader's state -/

def Frame.leaves : Frame → List Token
  | .array done => Document.leavesList done
  | .object done _ => Document.leavesFields done

def Expect.leaves : Expect → List Token
  | .value | .firstElement | .firstName => []
  | .name fields => Document.leavesFields fields
  | .colon fields _ => Document.leavesFields fields
  | .after v => v.leaves

def ReaderState.leaves (s : ReaderState) : List Token :=
  s.frames.flatMap Frame.leaves ++ s.expect.leaves

theorem readValue_leaves {frames : List Frame} {t u : Token} {s : ReaderState}
    (h : readValue frames t = some s) (hu : u ∈ s.leaves) :
    u = t ∨ u ∈ frames.flatMap Frame.leaves := by
  cases t <;> simp only [readValue, reduceCtorEq] at h <;> cases h <;>
    simp_all [ReaderState.leaves, Expect.leaves, Frame.leaves, Document.leaves, Document.leavesList,
      or_comm]

theorem readName_leaves {frames : List Frame} {done : List (Option String × Document)}
    {t u : Token} {s : ReaderState} (h : readName frames done t = some s) (hu : u ∈ s.leaves) :
    u ∈ frames.flatMap Frame.leaves ++ Document.leavesFields done := by
  cases t <;> simp only [readName, reduceCtorEq] at h <;> cases h <;>
    simpa [ReaderState.leaves, Expect.leaves] using hu

theorem readAfter_leaves {v : Document} {frames : List Frame} {t u : Token} {s : ReaderState}
    (h : readAfter v frames t = some s) (hu : u ∈ s.leaves) :
    u ∈ frames.flatMap Frame.leaves ++ v.leaves := by
  unfold readAfter at h
  split at h
  case h_5 => cases h
  all_goals
    cases h
    simp only [ReaderState.leaves, Expect.leaves, Frame.leaves, Document.leaves,
      List.flatMap_cons, List.mem_append, List.not_mem_nil, Document.mem_leavesList_reverse,
      Document.mem_leavesFields_reverse, Document.leavesList, Document.leavesFields] at hu ⊢
    grind

/-- One token adds at most itself to the scalars of the state. -/
theorem readStep_leaves {s s' : ReaderState} {t u : Token} (h : readStep s t = some s')
    (hu : u ∈ s'.leaves) : u = t ∨ u ∈ s.leaves := by
  obtain ⟨frames, expect⟩ := s
  have hframes : ∀ {e}, u ∈ frames.flatMap Frame.leaves → u ∈ ReaderState.leaves ⟨frames, e⟩ :=
    fun hm => List.mem_append_left _ hm
  cases expect with
  | value => exact (readValue_leaves h hu).imp_right hframes
  | firstElement =>
    simp only [readStep] at h
    split at h
    · cases h
      refine .inr (hframes ?_)
      simpa [ReaderState.leaves, Expect.leaves, Document.leaves, Document.leavesList] using
        Or.inr hu
    · exact (readValue_leaves h hu).imp_right hframes
  | firstName =>
    simp only [readStep] at h
    split at h
    · cases h
      refine .inr (hframes ?_)
      simpa [ReaderState.leaves, Expect.leaves, Document.leaves, Document.leavesFields] using hu
    · exact .inr (readName_leaves h hu)
  | name done => exact .inr (readName_leaves h hu)
  | colon done n =>
    simp only [readStep] at h
    split at h
    · cases h
      simp only [ReaderState.leaves, Expect.leaves, Frame.leaves, List.flatMap_cons,
        List.mem_append, List.not_mem_nil] at hu ⊢
      grind
    · cases h
  | after v => exact .inr (readAfter_leaves h hu)

theorem readAll_leaves {ts : List Token} {s s' : ReaderState} {u : Token}
    (h : readAll s ts = some s') (hu : u ∈ s'.leaves) : u ∈ ts ∨ u ∈ s.leaves := by
  induction ts generalizing s with
  | nil =>
    cases h
    exact .inr hu
  | cons t ts ih =>
    rw [readAll] at h
    split at h
    · cases h
    · rename_i s₁ hs
      rcases ih h with hm | hm
      · exact .inl (List.mem_cons_of_mem _ hm)
      · rcases readStep_leaves hs hm with rfl | hm
        · exact .inl (by simp)
        · exact .inr hm

/-- The scalars of a document are among its tokens. -/
theorem ofTokens?_leaves {ts : List Token} {d : Document} (h : Document.ofTokens? ts = some d) :
    d.leaves ⊆ ts := by
  intro u hu
  unfold Document.ofTokens? at h
  split at h
  · rename_i v hv
    cases h
    have := readAll_leaves hv (u := u) (List.mem_append_right _ hu)
    simpa [ReaderState.leaves, Expect.leaves] using this
  · cases h

/-! ### Integers -/

theorem readString_ne_int {sound : Bool} {high : Option Nat} {done cs r : List Char} {k : Int} :
    readString sound high done cs ≠ some (.int k, r) := by
  fun_induction readString sound high done cs with
  | case1 | case3 | case10 | case11 => exact nofun
  | case2 => unfold stringToken; split <;> simp
  | case4 | case5 | case6 | case7 | case8 | case9 | case12 => assumption

theorem wordFrom?_ne_int {c : Char} {w : List Char} {k : Int} :
    wordFrom? c ≠ some (w, .int k) := by
  unfold wordFrom?
  split <;> simp

theorem readToken_fitsWord {c : Char} {cs r : List Char} {k : Int}
    (h : readToken c cs = some (.int k, r)) : FitsWord k := by
  unfold readToken at h
  split at h
  · exact absurd h readString_ne_int
  split at h
  · exact readNumber_fitsWord h
  split at h
  · exact readNumber_fitsWord h
  split at h
  · cases h
  · rename_i w t hw
    obtain ⟨rest, -, heq⟩ := Option.map_eq_some_iff.mp h
    cases heq
    exact absurd hw wordFrom?_ne_int

theorem tokensUpTo_fitsWord {fuel : Nat} {cs : List Char} {ts : List Token} {k : Int}
    (h : tokensUpTo fuel cs = some ts) (hk : .int k ∈ ts) : FitsWord k := by
  induction fuel generalizing cs ts with
  | zero =>
    cases cs with
    | nil =>
      cases h
      cases hk
    | cons c cs => cases h
  | succ fuel ih =>
    cases cs with
    | nil =>
      cases h
      cases hk
    | cons c cs =>
      rw [tokensUpTo] at h
      split at h
      · exact ih h hk
      · split at h
        · cases h
        · rename_i t r ht
          obtain ⟨us, hus, rfl⟩ := Option.map_eq_some_iff.mp h
          rcases List.mem_cons.mp hk with rfl | hk
          · exact readToken_fitsWord ht
          · exact ih hus hk

/-! ### Values -/

theorem mem_values? {limit : Nat} {ds : List Document} {vs : List Json}
    (h : Document.values? limit ds = some vs) {v : Json} (hv : v ∈ vs) :
    ∃ d ∈ ds, d.value? limit = some v := by
  induction ds generalizing vs with
  | nil =>
    rw [Document.values?] at h
    cases h
    cases hv
  | cons d ds ih =>
    rw [Document.values?] at h
    split at h
    · cases h
    · rename_i w hw
      obtain ⟨ws, hws, rfl⟩ := Option.map_eq_some_iff.mp h
      rcases List.mem_cons.mp hv with rfl | hv
      · exact ⟨d, by simp, hw⟩
      · obtain ⟨e, he, hval⟩ := ih hws hv
        exact ⟨e, List.mem_cons_of_mem _ he, hval⟩

theorem mem_fieldValues? {limit : Nat} {ds : List (Option String × Document)}
    {done fs : List (String × Json)} (h : Document.fieldValues? limit ds done = some fs)
    {f : String × Json} (hf : f ∈ fs) : f ∈ done ∨ ∃ d ∈ ds, d.2.value? limit = some f.2 := by
  induction ds generalizing done with
  | nil =>
    rw [Document.fieldValues?] at h
    cases h
    exact .inl hf
  | cons d ds ih =>
    obtain ⟨n, d⟩ := d
    cases n with
    | none => cases h
    | some n =>
      rw [Document.fieldValues?] at h
      split at h
      · cases h
      · rename_i w hw
        rcases ih h with hm | ⟨e, he, hval⟩
        · rcases mem_insertField hm with rfl | hm
          · exact .inr ⟨(some n, d), by simp, hw⟩
          · exact .inl hm
        · exact .inr ⟨e, List.mem_cons_of_mem _ he, hval⟩

theorem fieldValues?_increasing {limit : Nat} {ds : List (Option String × Document)}
    {done fs : List (String × Json)} (h : Document.fieldValues? limit ds done = some fs)
    (hdone : Increasing done) : Increasing fs := by
  induction ds generalizing done with
  | nil =>
    rw [Document.fieldValues?] at h
    cases h
    exact hdone
  | cons d ds ih =>
    obtain ⟨n, d⟩ := d
    cases n with
    | none => cases h
    | some n =>
      rw [Document.fieldValues?] at h
      split at h
      · cases h
      · exact ih h (insertField_increasing hdone _ _)

/-- The scalars of a value come from the document. -/
theorem value?_scalars {d : Document} {limit : Nat} {j s : Json} (h : d.value? limit = some j)
    (hs : s ∈ j.scalars) : ∃ t ∈ d.leaves, Document.scalarValue? t = some s := by
  induction d using Document.inductionOn generalizing limit j with
  | scalar t =>
    rw [Document.value?] at h
    refine ⟨t, by simp [Document.leaves], ?_⟩
    unfold Document.scalarValue? at h
    split at h
    case h_4 =>
      split at h
      · cases h
        rename_i hfin
        rw [List.mem_singleton.mp hs]
        simp [Document.scalarValue?, hfin]
      · cases h
    case h_6 => cases h
    all_goals
      cases h
      rw [List.mem_singleton.mp hs]
      rfl
  | arr ds ih =>
    cases limit with
    | zero => cases h
    | succ limit =>
      obtain ⟨vs, hvs, rfl⟩ := Option.map_eq_some_iff.mp h
      obtain ⟨v, hv, hs⟩ := mem_scalarsList.mp hs
      obtain ⟨d, hd, hval⟩ := mem_values? hvs hv
      obtain ⟨t, ht, hts⟩ := ih d hd hval hs
      exact ⟨t, Document.mem_leavesList.mpr ⟨d, hd, ht⟩, hts⟩
  | obj ds ih =>
    cases limit with
    | zero => cases h
    | succ limit =>
      obtain ⟨fs, hfs, rfl⟩ := Option.map_eq_some_iff.mp h
      obtain ⟨f, hf, hs⟩ := mem_scalarsFields.mp hs
      rcases mem_fieldValues? hfs hf with hf | ⟨d, hd, hval⟩
      · cases hf
      · obtain ⟨t, ht, hts⟩ := ih d hd hval hs
        exact ⟨t, Document.mem_leavesFields.mpr ⟨d, hd, ht⟩, hts⟩

theorem scalarValue?_depth {t : Token} {j : Json} (h : Document.scalarValue? t = some j) :
    j.depth = 0 ∧ j.Ordered := by
  unfold Document.scalarValue? at h
  split at h
  case h_4 =>
    split at h
    · cases h
      exact ⟨rfl, trivial⟩
    · cases h
  case h_6 => cases h
  all_goals
    cases h
    exact ⟨rfl, trivial⟩

theorem value?_depth {d : Document} {limit : Nat} {j : Json} (h : d.value? limit = some j) :
    j.depth ≤ limit := by
  induction d using Document.inductionOn generalizing limit j with
  | scalar t =>
    rw [(scalarValue?_depth h).1]
    exact Nat.zero_le _
  | arr ds ih =>
    cases limit with
    | zero => cases h
    | succ limit =>
      obtain ⟨vs, hvs, rfl⟩ := Option.map_eq_some_iff.mp h
      have hle : depthList vs ≤ limit := by
        rw [depthList_le_iff]
        intro v hv
        obtain ⟨d, hd, hval⟩ := mem_values? hvs hv
        exact ih d hd hval
      rw [depth]
      omega
  | obj ds ih =>
    cases limit with
    | zero => cases h
    | succ limit =>
      obtain ⟨fs, hfs, rfl⟩ := Option.map_eq_some_iff.mp h
      have hle : depthFields fs ≤ limit := by
        rw [depthFields_le_iff]
        intro f hf
        rcases mem_fieldValues? hfs hf with hf | ⟨d, hd, hval⟩
        · cases hf
        · exact ih d hd hval
      rw [depth]
      omega

theorem value?_ordered {d : Document} {limit : Nat} {j : Json} (h : d.value? limit = some j) :
    j.Ordered := by
  induction d using Document.inductionOn generalizing limit j with
  | scalar t => exact (scalarValue?_depth h).2
  | arr ds ih =>
    cases limit with
    | zero => cases h
    | succ limit =>
      obtain ⟨vs, hvs, rfl⟩ := Option.map_eq_some_iff.mp h
      rw [Ordered, orderedList_iff]
      intro v hv
      obtain ⟨d, hd, hval⟩ := mem_values? hvs hv
      exact ih d hd hval
  | obj ds ih =>
    cases limit with
    | zero => cases h
    | succ limit =>
      obtain ⟨fs, hfs, rfl⟩ := Option.map_eq_some_iff.mp h
      rw [Ordered, orderedFields_iff]
      refine ⟨fieldValues?_increasing hfs List.Pairwise.nil, ?_⟩
      intro f hf
      rcases mem_fieldValues? hfs hf with hf | ⟨d, hd, hval⟩
      · cases hf
      · exact ih d hd hval

/-- What every value that was read is like. -/
structure WellFormed (j : Json) : Prop where
  ordered : j.Ordered
  depth_le : j.depth ≤ maxDepth
  fitsWord : ∀ k, .int k ∈ j.scalars → FitsWord k

theorem parse?_wellFormed {cs : List Char} {j : Json} (h : parse? cs = some j) : j.WellFormed := by
  rw [parse?] at h
  obtain ⟨d, hd, hval⟩ := Option.bind_eq_some_iff.mp h
  rw [Document.parse?] at hd
  obtain ⟨ts, hts, hdoc⟩ := Option.bind_eq_some_iff.mp hd
  refine ⟨value?_ordered hval, value?_depth hval, ?_⟩
  intro k hk
  obtain ⟨t, ht, hts'⟩ := value?_scalars hval hk
  have htk : t = .int k := by
    unfold Document.scalarValue? at hts'
    split at hts' <;> simp_all
  subst htk
  exact tokensUpTo_fitsWord hts (ofTokens?_leaves hdoc ht)

/-- What a text spells has the numbers that JSON has. -/
theorem parse?_hasJsonNumbers {cs : List Char} {v : Json} (h : parse? cs = some v) :
    v.HasJsonNumbers := by
  refine ⟨(parse?_wellFormed h).fitsWord, ?_⟩
  obtain ⟨d, -, hvalue⟩ := Option.bind_eq_some_iff.mp h
  intro x hx
  obtain ⟨t, -, ht⟩ := value?_scalars hvalue hx
  exact scalarValue?_isFinite ht

end SourceAudit.Json
