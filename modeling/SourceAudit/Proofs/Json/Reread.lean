import SourceAudit.Proofs.Json.Ordered

/-!
Values as they are read again from their texts. Only the last places of doubles can change: the
order of fields, the nesting and all other scalars stay, so reading again goes with sorting
(`reread_sorted`), and it changes nothing if the doubles read back (`reread_eq_self`).
-/

namespace SourceAudit.Json

open SourceAudit.Number (Binary64)

theorem rereadList_eq_map (xs : List Json) : rereadList xs = xs.map reread := by
  induction xs with
  | nil => rfl
  | cons x xs ih => simp [rereadList, ih]

/-- A field with its value as it is read again. -/
def rereadField (f : String × Json) : String × Json := (f.1, f.2.reread)

theorem rereadFields_eq_map (fs : List (String × Json)) : rereadFields fs = fs.map rereadField := by
  induction fs with
  | nil => rfl
  | cons f fs ih =>
    obtain ⟨n, v⟩ := f
    simp [rereadFields, rereadField, ih]

/-- The scalars of a value as it is read again are those of the value, read again. -/
theorem mem_scalars_reread {j s : Json} (h : s ∈ j.reread.scalars) :
    ∃ t ∈ j.scalars, s = t.reread := by
  induction j using inductionOn with
  | null => exact ⟨_, h, (List.mem_singleton.mp h).symm ▸ rfl⟩
  | bool b => exact ⟨_, h, (List.mem_singleton.mp h).symm ▸ rfl⟩
  | int n => exact ⟨_, h, (List.mem_singleton.mp h).symm ▸ rfl⟩
  | double x => exact ⟨.double x, List.mem_singleton.mpr rfl, List.mem_singleton.mp h⟩
  | str s => exact ⟨_, h, (List.mem_singleton.mp h).symm ▸ rfl⟩
  | arr xs ih =>
    rw [reread, scalars, rereadList_eq_map, mem_scalarsList] at h
    obtain ⟨y, hy, hs⟩ := h
    obtain ⟨x, hx, rfl⟩ := List.mem_map.mp hy
    obtain ⟨t, ht, hst⟩ := ih x hx hs
    exact ⟨t, mem_scalarsList.mpr ⟨x, hx, ht⟩, hst⟩
  | obj fs ih =>
    rw [reread, scalars, rereadFields_eq_map, mem_scalarsFields] at h
    obtain ⟨g, hg, hs⟩ := h
    obtain ⟨f, hf, rfl⟩ := List.mem_map.mp hg
    obtain ⟨t, ht, hst⟩ := ih f hf hs
    exact ⟨t, mem_scalarsFields.mpr ⟨f, hf, ht⟩, hst⟩

theorem hasJsonNumbers_append {xs : List Json} {y : Json} (hxs : (arr xs).HasJsonNumbers)
    (hy : y.HasJsonNumbers) : (arr (xs ++ [y])).HasJsonNumbers := by
  have hmem {s : Json} (h : s ∈ (arr (xs ++ [y])).scalars) :
      s ∈ (arr xs).scalars ∨ s ∈ y.scalars := by
    obtain ⟨x, hx, hs⟩ := mem_scalarsList.mp h
    rcases List.mem_append.mp hx with hx | hx
    · exact .inl (mem_scalarsList.mpr ⟨x, hx, hs⟩)
    · exact .inr (List.mem_singleton.mp hx ▸ hs)
  constructor
  · intro n hn
    rcases hmem hn with h | h
    · exact hxs.fitsWord n h
    · exact hy.fitsWord n h
  · intro x hx
    rcases hmem hx with h | h
    · exact hxs.isFinite x h
    · exact hy.isFinite x h

theorem HasJsonNumbers.reread {j : Json} (h : j.HasJsonNumbers) : j.reread.HasJsonNumbers := by
  constructor
  · intro n hn
    obtain ⟨t, ht, heq⟩ := mem_scalars_reread hn
    cases t with
    | int m =>
      cases heq
      exact h.fitsWord n ht
    | null | bool | double | str | arr | obj => cases heq
  · intro x hx
    obtain ⟨t, ht, heq⟩ := mem_scalars_reread hx
    cases t with
    | double y =>
      cases heq
      exact (readToken_rereadDouble (h.isFinite y ht)).1
    | null | bool | int | str | arr | obj => cases heq

theorem reread_eq_self {j : Json} (h : ∀ x, .double x ∈ j.scalars → rereadDouble x = x) :
    j.reread = j := by
  induction j using inductionOn with
  | null => rfl
  | bool b => rfl
  | int n => rfl
  | double x => rw [reread, h x (List.mem_singleton.mpr rfl)]
  | str s => rfl
  | arr xs ih =>
    rw [reread, rereadList_eq_map]
    congr 1
    refine (List.map_congr_left fun x hx => ih x hx ?_).trans (List.map_id xs)
    exact fun y hy => h y (mem_scalarsList.mpr ⟨x, hx, hy⟩)
  | obj fs ih =>
    rw [reread, rereadFields_eq_map]
    congr 1
    refine (List.map_congr_left fun f hf => ?_).trans (List.map_id fs)
    rw [rereadField, ih f hf fun y hy => h y (mem_scalarsFields.mpr ⟨f, hf, hy⟩)]
    rfl

theorem Legible.reread_eq_self {j : Json} (h : j.Legible) : j.reread = j :=
  Json.reread_eq_self fun x hx => ReadsBack.rereadDouble_eq (h (.double x) hx)

theorem depth_reread (j : Json) : j.reread.depth = j.depth := by
  induction j using inductionOn with
  | null => rfl
  | bool b => rfl
  | int n => rfl
  | double x => rfl
  | str s => rfl
  | arr xs ih =>
    rw [reread, depth, depth]
    congr 1
    induction xs with
    | nil => rfl
    | cons x xs ihxs =>
      rw [rereadList, depthList, depthList, ih x (by simp),
        ihxs fun y hy => ih y (List.mem_cons_of_mem _ hy)]
  | obj fs ih =>
    rw [reread, depth, depth]
    congr 1
    induction fs with
    | nil => rfl
    | cons f fs ihfs =>
      obtain ⟨n, v⟩ := f
      rw [rereadFields, depthFields, depthFields, ih (n, v) (by simp),
        ihfs fun g hg => ih g (List.mem_cons_of_mem _ hg)]

theorem insertField_map_reread (name : String) (v : Json) (fs : List (String × Json)) :
    insertField name v.reread (fs.map rereadField) = (insertField name v fs).map rereadField := by
  induction fs with
  | nil => rfl
  | cons f fs ih =>
    obtain ⟨n, w⟩ := f
    simp only [List.map_cons, rereadField, insertField]
    split
    · rfl
    · split
      · rfl
      · simp only [List.map_cons, rereadField, ← ih]

theorem sortedFields_map_reread {fs : List (String × Json)}
    (h : ∀ f ∈ fs, f.2.reread.sorted = f.2.sorted.reread) (done : List (String × Json)) :
    sortedFields (fs.map rereadField) (done.map rereadField) =
      (sortedFields fs done).map rereadField := by
  induction fs generalizing done with
  | nil => rfl
  | cons f fs ih =>
    obtain ⟨n, v⟩ := f
    have hv : v.reread.sorted = v.sorted.reread := h (n, v) (by simp)
    simp only [List.map_cons, rereadField, sortedFields, hv, insertField_map_reread]
    exact ih (fun f hf => h f (List.mem_cons_of_mem _ hf)) _

/-- Reading again goes with sorting. -/
theorem reread_sorted (j : Json) : j.reread.sorted = j.sorted.reread := by
  induction j using inductionOn with
  | null => rfl
  | bool b => rfl
  | int n => rfl
  | double x => rfl
  | str s => rfl
  | arr xs ih =>
    rw [reread, sorted, sorted, reread, rereadList_eq_map, rereadList_eq_map, sortedList_eq_map,
      sortedList_eq_map, List.map_map, List.map_map]
    congr 1
    exact List.map_congr_left ih
  | obj fs ih =>
    rw [reread, sorted, sorted, reread, rereadFields_eq_map, rereadFields_eq_map]
    congr 1
    exact sortedFields_map_reread ih []

theorem sorted_reread_eq {j : Json} (h : j.Ordered) : j.reread.sorted = j.reread := by
  rw [reread_sorted, sorted_eq_self h]

end SourceAudit.Json
