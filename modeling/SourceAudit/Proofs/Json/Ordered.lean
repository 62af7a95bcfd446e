import SourceAudit.Proofs.Json.Text

/-!
The order of fields. `sorted` puts the fields of every object in increasing order (`ordered_sorted`)
and changes nothing in a value that has this order already (`sorted_eq_self`); it makes up no scalar
and no level of nesting.
-/

namespace SourceAudit.Json

/-! ### Induction and membership -/

/-- Induction on values, with the elements and fields of a container at once. -/
@[elab_as_elim]
theorem inductionOn {P : Json → Prop} (null : P .null) (bool : ∀ b, P (.bool b))
    (int : ∀ n, P (.int n)) (double : ∀ x, P (.double x)) (str : ∀ s, P (.str s))
    (arr : ∀ xs, (∀ x ∈ xs, P x) → P (.arr xs))
    (obj : ∀ fs : List (String × Json), (∀ f ∈ fs, P f.2) → P (.obj fs)) (j : Json) : P j :=
  value j
where
  value : ∀ j, P j
    | .null => null
    | .bool b => bool b
    | .int n => int n
    | .double x => double x
    | .str s => str s
    | .arr xs => arr xs (elements xs)
    | .obj fs => obj fs (fields fs)
  elements : ∀ xs : List Json, ∀ x ∈ xs, P x
    | [] => fun _ h => nomatch h
    | x :: xs => List.forall_mem_cons.mpr ⟨value x, elements xs⟩
  fields : ∀ fs : List (String × Json), ∀ f ∈ fs, P f.2
    | [] => fun _ h => nomatch h
    | (_, v) :: fs => List.forall_mem_cons.mpr ⟨value v, fields fs⟩

theorem mem_scalarsList {s : Json} {xs : List Json} :
    s ∈ scalarsList xs ↔ ∃ x ∈ xs, s ∈ x.scalars := by
  induction xs with
  | nil => simp [scalarsList]
  | cons x xs ih => simp [scalarsList, ih]

theorem mem_scalarsFields {s : Json} {fs : List (String × Json)} :
    s ∈ scalarsFields fs ↔ ∃ f ∈ fs, s ∈ f.2.scalars := by
  induction fs with
  | nil => simp [scalarsFields]
  | cons f fs ih => simp [scalarsFields, ih]

theorem legible_arr {xs : List Json} : (arr xs).Legible ↔ ∀ x ∈ xs, x.Legible := by
  simp only [Legible, scalars, mem_scalarsList]
  constructor
  · exact fun h x hx s hs => h s ⟨x, hx, hs⟩
  · rintro h s ⟨x, hx, hs⟩
    exact h x hx s hs

theorem depthList_le_iff {k : Nat} {xs : List Json} :
    depthList xs ≤ k ↔ ∀ x ∈ xs, x.depth ≤ k := by
  induction xs with
  | nil => simp [depthList]
  | cons x xs ih => rw [depthList, Nat.max_le, ih, List.forall_mem_cons]

theorem depthFields_le_iff {k : Nat} {fs : List (String × Json)} :
    depthFields fs ≤ k ↔ ∀ f ∈ fs, f.2.depth ≤ k := by
  induction fs with
  | nil => simp [depthFields]
  | cons f fs ih => rw [depthFields, Nat.max_le, ih, List.forall_mem_cons]

theorem depth_arr_le {k : Nat} {xs : List Json} :
    (arr xs).depth ≤ k + 1 ↔ ∀ x ∈ xs, x.depth ≤ k := by
  rw [depth, Nat.add_comm, Nat.add_le_add_iff_right, depthList_le_iff]

theorem depth_obj_le {k : Nat} {fs : List (String × Json)} :
    (obj fs).depth ≤ k + 1 ↔ ∀ f ∈ fs, f.2.depth ≤ k := by
  rw [depth, Nat.add_comm, Nat.add_le_add_iff_right, depthFields_le_iff]

theorem sortedList_eq_map (xs : List Json) : sortedList xs = xs.map sorted := by
  induction xs with
  | nil => rfl
  | cons x xs ih => simp [sortedList, ih]

/-! ### Fields -/

/-- The names of the fields increase. -/
def Increasing (fs : List (String × Json)) : Prop := fs.Pairwise fun f g => f.1 < g.1

@[simp]
theorem field?_insertField (name other : String) (v : Json) (fs : List (String × Json)) :
    field? (insertField name v fs) other = if name = other then some v else field? fs other := by
  induction fs with
  | nil => by_cases h : name = other <;> simp [insertField, field?, h]
  | cons f fs ih =>
    obtain ⟨n, w⟩ := f
    unfold insertField
    split
    · by_cases h : name = other <;> simp [field?, h]
    · split
      · rename_i hn
        subst hn
        by_cases h : name = other <;> simp [field?, h]
      · rename_i hn
        by_cases h : n = other
        · subst h
          simp [field?, hn]
        · simp only [field?] at ih
          simp [field?, h, ih]

theorem mem_insertField {name : String} {v : Json} {fs : List (String × Json)}
    {f : String × Json} (h : f ∈ insertField name v fs) : f = (name, v) ∨ f ∈ fs := by
  induction fs with
  | nil => simpa [insertField] using h
  | cons g fs ih =>
    obtain ⟨n, w⟩ := g
    unfold insertField at h
    split at h
    · simpa using h
    · split at h
      · rcases List.mem_cons.mp h with h | h
        · exact .inl h
        · exact .inr (List.mem_cons_of_mem _ h)
      · rcases List.mem_cons.mp h with h | h
        · exact .inr (by simp [h])
        · rcases ih h with h | h
          · exact .inl h
          · exact .inr (List.mem_cons_of_mem _ h)

theorem insertField_increasing {fs : List (String × Json)} (h : Increasing fs) (name : String)
    (v : Json) : Increasing (insertField name v fs) := by
  induction fs with
  | nil => simp [insertField, Increasing]
  | cons g fs ih =>
    obtain ⟨n, w⟩ := g
    obtain ⟨hn, hfs⟩ := List.pairwise_cons.mp h
    unfold insertField
    split
    · rename_i hlt
      refine List.pairwise_cons.mpr ⟨?_, h⟩
      intro f hf
      rcases List.mem_cons.mp hf with rfl | hf
      · exact hlt
      · exact String.lt_trans hlt (hn f hf)
    · split
      · rename_i heq
        subst heq
        exact List.pairwise_cons.mpr ⟨hn, hfs⟩
      · rename_i hge hne
        refine List.pairwise_cons.mpr ⟨?_, ih hfs⟩
        intro f hf
        rcases mem_insertField hf with rfl | hf
        · rcases String.le_total name n with hle | hle
          · exact absurd (String.le_antisymm hle hge) hne
          · exact String.not_le.mp fun hle' => hne (String.le_antisymm hle' hle)
        · exact hn f hf

/-- A field with the greatest name goes to the end. -/
theorem insertField_eq_append {name : String} {fs : List (String × Json)}
    (h : ∀ f ∈ fs, f.1 < name) (v : Json) : insertField name v fs = fs ++ [(name, v)] := by
  induction fs with
  | nil => rfl
  | cons g fs ih =>
    obtain ⟨n, w⟩ := g
    have hn : n < name := h (n, w) (by simp)
    have hlt : ¬ name < n := String.lt_asymm hn
    have hne : name ≠ n := (String.ne_of_lt hn).symm
    simp only [insertField, hlt, hne, ↓reduceIte, List.cons_append]
    rw [ih fun f hf => h f (List.mem_cons_of_mem _ hf)]

/-! ### Sorted values -/

theorem sortedFields_increasing (fs : List (String × Json)) {done : List (String × Json)}
    (h : Increasing done) : Increasing (sortedFields fs done) := by
  induction fs generalizing done with
  | nil => simpa [sortedFields] using h
  | cons f fs ih =>
    obtain ⟨n, v⟩ := f
    rw [sortedFields]
    exact ih (insertField_increasing h n _)

theorem mem_sortedFields {fs done : List (String × Json)} {f : String × Json}
    (h : f ∈ sortedFields fs done) : f ∈ done ∨ ∃ g ∈ fs, f = (g.1, g.2.sorted) := by
  induction fs generalizing done with
  | nil => exact .inl (by simpa [sortedFields] using h)
  | cons g fs ih =>
    obtain ⟨n, v⟩ := g
    rw [sortedFields] at h
    rcases ih h with h | ⟨g, hg, rfl⟩
    · rcases mem_insertField h with rfl | h
      · exact .inr ⟨(n, v), by simp, rfl⟩
      · exact .inl h
    · exact .inr ⟨g, List.mem_cons_of_mem _ hg, rfl⟩

mutual

/-- The fields of all objects in the value increase. -/
def Ordered : Json → Prop
  | .arr xs => OrderedList xs
  | .obj fs => Increasing fs ∧ OrderedFields fs
  | .null | .bool _ | .int _ | .double _ | .str _ => True

def OrderedList : List Json → Prop
  | [] => True
  | x :: xs => x.Ordered ∧ OrderedList xs

def OrderedFields : List (String × Json) → Prop
  | [] => True
  | (_, v) :: fs => v.Ordered ∧ OrderedFields fs

end

theorem orderedList_iff {xs : List Json} : OrderedList xs ↔ ∀ x ∈ xs, x.Ordered := by
  induction xs with
  | nil => simp [OrderedList]
  | cons x xs ih => simp [OrderedList, ih]

theorem orderedFields_iff {fs : List (String × Json)} :
    OrderedFields fs ↔ ∀ f ∈ fs, f.2.Ordered := by
  induction fs with
  | nil => simp [OrderedFields]
  | cons f fs ih => simp [OrderedFields, ih]

theorem ordered_sorted (j : Json) : j.sorted.Ordered := by
  induction j using inductionOn with
  | null => trivial
  | bool b => trivial
  | int n => trivial
  | double x => trivial
  | str s => trivial
  | arr xs ih =>
    rw [sorted, Ordered, sortedList_eq_map, orderedList_iff]
    simpa using ih
  | obj fs ih =>
    rw [sorted, Ordered, orderedFields_iff]
    refine ⟨sortedFields_increasing fs List.Pairwise.nil, ?_⟩
    intro f hf
    rcases mem_sortedFields hf with hf | ⟨g, hg, rfl⟩
    · cases hf
    · exact ih g hg

/-- Fields that increase stay where they are. -/
theorem sortedFields_eq_append {fs done : List (String × Json)} (hs : ∀ f ∈ fs, f.2.sorted = f.2)
    (hinc : Increasing fs) (hlt : ∀ f ∈ fs, ∀ g ∈ done, g.1 < f.1) :
    sortedFields fs done = done ++ fs := by
  induction fs generalizing done with
  | nil => simp [sortedFields]
  | cons f fs ih =>
    obtain ⟨n, v⟩ := f
    obtain ⟨hn, hfs⟩ := List.pairwise_cons.mp hinc
    have hv : v.sorted = v := hs (n, v) (by simp)
    rw [sortedFields, hv, insertField_eq_append (hlt (n, v) (by simp)), ih
      (fun f hf => hs f (List.mem_cons_of_mem _ hf)) hfs]
    · simp
    · intro f hf g hg
      rcases List.mem_append.mp hg with hg | hg
      · exact hlt f (List.mem_cons_of_mem _ hf) g hg
      · rw [List.mem_singleton.mp hg]
        exact hn f hf

theorem sorted_eq_self {j : Json} (h : j.Ordered) : j.sorted = j := by
  induction j using inductionOn with
  | null => rfl
  | bool b => rfl
  | int n => rfl
  | double x => rfl
  | str s => rfl
  | arr xs ih =>
    rw [Ordered, orderedList_iff] at h
    rw [sorted, sortedList_eq_map]
    congr 1
    exact (List.map_congr_left fun x hx => ih x hx (h x hx)).trans (List.map_id xs)
  | obj fs ih =>
    rw [Ordered, orderedFields_iff] at h
    rw [sorted, sortedFields_eq_append (fun f hf => ih f hf (h.2 f hf)) h.1 (by simp)]
    rfl

/-- Sorting makes up no scalar. -/
theorem scalars_sorted_subset (j : Json) : j.sorted.scalars ⊆ j.scalars := by
  induction j using inductionOn with
  | null => exact List.Subset.refl _
  | bool b => exact List.Subset.refl _
  | int n => exact List.Subset.refl _
  | double x => exact List.Subset.refl _
  | str s => exact List.Subset.refl _
  | arr xs ih =>
    intro s hs
    rw [sorted, scalars, sortedList_eq_map, mem_scalarsList] at hs
    obtain ⟨y, hy, hs⟩ := hs
    obtain ⟨x, hx, rfl⟩ := List.mem_map.mp hy
    rw [scalars, mem_scalarsList]
    exact ⟨x, hx, ih x hx hs⟩
  | obj fs ih =>
    intro s hs
    rw [sorted, scalars, mem_scalarsFields] at hs
    obtain ⟨f, hf, hs⟩ := hs
    rcases mem_sortedFields hf with hf | ⟨g, hg, rfl⟩
    · cases hf
    · rw [scalars, mem_scalarsFields]
      exact ⟨g, hg, ih g hg hs⟩

/-- Sorting makes up no level of nesting. -/
theorem depth_sorted_le (j : Json) : j.sorted.depth ≤ j.depth := by
  induction j using inductionOn with
  | null => exact Nat.le_refl _
  | bool b => exact Nat.le_refl _
  | int n => exact Nat.le_refl _
  | double x => exact Nat.le_refl _
  | str s => exact Nat.le_refl _
  | arr xs ih =>
    rw [sorted, depth, depth, sortedList_eq_map]
    refine Nat.add_le_add_left (depthList_le_iff.mpr ?_) 1
    intro y hy
    obtain ⟨x, hx, rfl⟩ := List.mem_map.mp hy
    exact Nat.le_trans (ih x hx) (depthList_le_iff.mp (Nat.le_refl _) x hx)
  | obj fs ih =>
    rw [sorted, depth, depth]
    refine Nat.add_le_add_left (depthFields_le_iff.mpr ?_) 1
    intro f hf
    rcases mem_sortedFields hf with hf | ⟨g, hg, rfl⟩
    · cases hf
    · exact Nat.le_trans (ih g hg) (depthFields_le_iff.mp (Nat.le_refl _) g hg)

end SourceAudit.Json
