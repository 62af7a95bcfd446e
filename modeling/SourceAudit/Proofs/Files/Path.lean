import SourceAudit.Files.Path

/-!
Splitting and joining paths. The parts of a joined path are the parts it was joined from, so every
path above a path is the first of its own ancestors (`ancestors_of_mem`).
-/

namespace SourceAudit.Files

/-- No part between slashes has a slash. -/
theorem slash_not_mem_splitSlash (cs : List Char) : ∀ part ∈ splitSlash cs, '/' ∉ part := by
  fun_induction splitSlash cs with
  | case1 => simp
  | case2 rest ih => simpa using ih
  | case3 c rest hc hrest ih => simp [Ne.symm hc]
  | case4 c rest hc p ps hrest ih =>
    rw [hrest, List.forall_mem_cons] at ih
    rw [List.forall_mem_cons]
    exact ⟨by simp [Ne.symm hc, ih.1], ih.2⟩

/-- Characters before the first slash go to the first part. -/
theorem splitSlash_append_left {front : List Char} (h : '/' ∉ front) {cs p : List Char}
    {ps : List (List Char)} (hcs : splitSlash cs = p :: ps) :
    splitSlash (front ++ cs) = (front ++ p) :: ps := by
  induction front with
  | nil => exact hcs
  | cons c front ih =>
    rw [List.mem_cons, not_or] at h
    rw [List.cons_append, splitSlash, if_neg (Ne.symm h.1), ih h.2]
    rfl

theorem splitSlash_joinSlash (first : List Char) (others : List (List Char))
    (h : ∀ part ∈ first :: others, '/' ∉ part) :
    splitSlash (joinSlash (first :: others)) = first :: others := by
  induction others generalizing first with
  | nil =>
    have hsplit := splitSlash_append_left (h first (by simp)) (show splitSlash [] = [[]] from rfl)
    simpa [joinSlash] using hsplit
  | cons next others ih =>
    have hrest := ih next fun part hpart => h part (List.mem_cons_of_mem _ hpart)
    have hslash : splitSlash ('/' :: joinSlash (next :: others)) = [] :: next :: others := by
      rw [splitSlash, if_pos rfl, hrest]
    have hsplit := splitSlash_append_left (h first (by simp)) hslash
    simpa [joinSlash] using hsplit

namespace Path

theorem trimSlashes_eq_self {path : String} (h : endsInSlash path = false) :
    trimSlashes path.toList = path.toList := by
  have hlast : path.toList.reverse.head? ≠ some '/' := by
    simpa [endsInSlash] using h
  unfold trimSlashes
  cases hcs : path.toList.reverse with
  | nil => simpa using hcs.symm
  | cons c cs =>
    have hc : c ≠ '/' := by simpa [hcs] using hlast
    rw [List.dropWhile_cons_of_neg (by simpa using hc), ← hcs, List.reverse_reverse]

theorem parts_eq_append_lastPart {path : String} (h : endsInSlash path = false)
    (hlast : lastPart path ≠ []) : ∃ init, parts path = init ++ [lastPart path] := by
  unfold lastPart at hlast ⊢
  rw [trimSlashes_eq_self h] at hlast ⊢
  cases hparts : (splitSlash path.toList).getLast? with
  | none => simp [hparts] at hlast
  | some part => exact List.getLast?_eq_some_iff.mp hparts

/-- A run ends in a part that counts. -/
theorem mem_runs {before parts ps : List (List Char)} (h : ps ∈ runs before parts) :
    ∃ init part more, parts = init ++ part :: more ∧ ps = before.reverse ++ init ++ [part] ∧
      counts (before.isEmpty && init.isEmpty) part = true := by
  induction parts generalizing before with
  | nil => simp [runs] at h
  | cons p parts ih =>
    rw [runs] at h
    have hlonger : ps ∈ runs (p :: before) parts →
        ∃ init part more, p :: parts = init ++ part :: more ∧
          ps = before.reverse ++ init ++ [part] ∧
          counts (before.isEmpty && init.isEmpty) part = true := by
      intro hmem
      obtain ⟨init, part, more, rfl, rfl, hcounts⟩ := ih hmem
      exact ⟨p :: init, part, more, rfl, by simp, by simpa using hcounts⟩
    split at h
    · rename_i hcounts
      rcases List.mem_append.mp h with hmem | hmem
      · exact hlonger hmem
      · refine ⟨[], p, parts, rfl, ?_, by simpa using hcounts⟩
        simpa using hmem
    · exact hlonger h

theorem runs_ne_nil {before init : List (List Char)} {part : List Char}
    (h : counts (before.isEmpty && init.isEmpty) part = true) :
    runs before (init ++ [part]) ≠ [] := by
  induction init generalizing before with
  | nil =>
    have h : counts before.isEmpty part = true := by simpa using h
    simp [runs, h]
  | cons p init ih =>
    have hlonger : runs (p :: before) (init ++ [part]) ≠ [] := ih (by simpa using h)
    rw [List.cons_append, runs]
    split
    · simp
    · exact hlonger

theorem ancestors_ne_nil {path : String} (h : runs [] (parts path) ≠ []) :
    ∃ above, ancestors path = path :: above := by
  unfold ancestors
  split
  · rename_i hnil
    exact absurd hnil h
  · exact ⟨_, rfl⟩

/-- A path above a path is the first of its own ancestors. -/
theorem ancestors_of_mem {path above : String} (h : above ∈ (ancestors path).tail) :
    ∃ more, ancestors above = above :: more := by
  unfold ancestors at h
  split at h
  · simp at h
  rename_i longest others hruns
  obtain ⟨ps, hps, rfl⟩ := List.mem_map.mp h
  have hmem : ps ∈ runs [] (parts path) := by simp [hruns, hps]
  obtain ⟨init, part, more, hparts, rfl, hcounts⟩ := mem_runs hmem
  apply ancestors_ne_nil
  have hjoin : parts (String.ofList (joinSlash (init ++ [part]))) = init ++ [part] := by
    have hno : ∀ q ∈ init ++ [part], '/' ∉ q := by
      intro q hq
      refine slash_not_mem_splitSlash path.toList q ?_
      rw [← parts, hparts]
      rcases List.mem_append.mp hq with hq | hq
      · exact List.mem_append_left _ hq
      · simp [List.mem_singleton.mp hq]
    rw [parts, String.toList_ofList]
    cases hinit : init ++ [part] with
    | nil => simp at hinit
    | cons first others => exact splitSlash_joinSlash first others (hinit ▸ hno)
  have hne : runs [] (init ++ [part]) ≠ [] := runs_ne_nil hcounts
  simpa [hjoin] using hne

end Path
end SourceAudit.Files
