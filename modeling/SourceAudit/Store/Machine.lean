import SourceAudit.Files.Disk

/-!
The machine that a store is written on: which steps it refuses, and what it calls a temporary file.
The name of a temporary file is new in its directory and not the name of the store.
-/

namespace SourceAudit.Store

open SourceAudit.Files (Disk Entry Place)

/-- The steps that can fail. -/
inductive Step where
  /-- One of the directories above the store. -/
  | makeDirectory (path : String)
  | createTemporary
  | writeRecords
  | writeLineEnd
  | setMode
  | replace
  deriving BEq, DecidableEq, Inhabited

/-- What a machine does that the state of the files does not decide. -/
structure Machine where
  /-- The steps it refuses although the files allow them. -/
  refuse : Step → Option Files.Fault
  /-- How many bytes of the records reach the file if their writing is refused. -/
  written : Nat
  /-- The name of a temporary file, in the directory at a place, for the store at a path. -/
  temporaryName : Disk → Place → String → String
  isNew : ∀ (d : Disk) dir path, d.get? (dir ++ [temporaryName d dir path]) = none
  isNotStore : ∀ d dir path, (temporaryName d dir path).toList ≠ Files.Path.lastPart path

/-! ### Names that are longer than all others -/

/-- Longest name on the disk. -/
def longestNameOn (d : Disk) : Nat :=
  d.entries.foldl (fun n e => max n ((e.1.getLast?).getD "").length) 0

/-- A name that neither an entry nor the store has, because it is longer than all of them. -/
def freshName (d : Disk) (path : String) : String :=
  String.ofList (".tmp".toList ++ List.replicate (max (longestNameOn d) path.length) 'x')

theorem length_freshName (d : Disk) (path : String) :
    (freshName d path).length = 4 + max (longestNameOn d) path.length := by
  have hbase : ".tmp".toList.length = 4 := by decide
  unfold freshName
  rw [String.length_ofList, List.length_append, List.length_replicate, hbase]

theorem le_foldl_max {α : Type} (f : α → Nat) (xs : List α) (n : Nat) :
    n ≤ xs.foldl (fun n x => max n (f x)) n ∧
      ∀ x ∈ xs, f x ≤ xs.foldl (fun n x => max n (f x)) n := by
  induction xs generalizing n with
  | nil => simp
  | cons y ys ih =>
    obtain ⟨hn, hys⟩ := ih (max n (f y))
    refine ⟨Nat.le_trans (Nat.le_max_left _ _) hn, ?_⟩
    intro x hx
    rcases List.mem_cons.mp hx with rfl | hx
    · exact Nat.le_trans (Nat.le_max_right _ _) hn
    · exact hys x hx

theorem freshName_isNew (d : Disk) (dir : Place) (path : String) :
    d.get? (dir ++ [freshName d path]) = none := by
  simp only [Disk.get?, List.isEmpty_iff, List.append_eq_nil_iff, List.cons_ne_self, and_false,
    ↓reduceIte, Option.map_eq_none_iff, List.find?_eq_none, decide_eq_true_eq]
  intro e he heq
  have hle := (le_foldl_max (fun e : Place × Entry => ((e.1.getLast?).getD "").length)
    d.entries 0).2 e he
  have hlen := length_freshName d path
  simp only [heq, List.getLast?_append, List.getLast?_singleton, Option.some_or,
    Option.getD_some] at hle
  simp only [longestNameOn] at hlen
  omega

theorem length_le_of_mem_splitSlash (cs : List Char) :
    ∀ p ∈ Files.splitSlash cs, p.length ≤ cs.length := by
  induction cs with
  | nil => simp [Files.splitSlash]
  | cons c cs ih =>
    intro p hp
    simp only [Files.splitSlash] at hp
    split at hp
    · rcases List.mem_cons.mp hp with rfl | hp
      · simp
      · exact Nat.le_succ_of_le (ih p hp)
    · split at hp
      · simp_all
      · rename_i q qs hq
        rcases List.mem_cons.mp hp with rfl | hp
        · simpa using ih q (by simp [hq])
        · exact Nat.le_succ_of_le (ih p (by simp [hq, hp]))

theorem length_lastPart_le (path : String) :
    (Files.Path.lastPart path).length ≤ path.length := by
  have htrim : (Files.trimSlashes path.toList).length ≤ path.toList.length := by
    have := (List.dropWhile_suffix (· = '/') (l := path.toList.reverse)).length_le
    simpa [Files.trimSlashes] using this
  rw [String.length_toList] at htrim
  simp only [Files.Path.lastPart]
  cases h : (Files.splitSlash (Files.trimSlashes path.toList)).getLast? with
  | none => simp
  | some p =>
    have := length_le_of_mem_splitSlash _ p (List.mem_of_getLast? h)
    simp only [Option.getD_some]
    omega

theorem freshName_isNotStore (d : Disk) (path : String) :
    (freshName d path).toList ≠ Files.Path.lastPart path := by
  intro h
  have hlen := length_freshName d path
  have hle := length_lastPart_le path
  rw [← h, String.length_toList] at hle
  omega

/-- A machine that refuses no step. -/
def Machine.willing : Machine where
  refuse _ := none
  written := 0
  temporaryName d _ path := freshName d path
  isNew d dir path := freshName_isNew d dir path
  isNotStore d _ path := freshName_isNotStore d path

end SourceAudit.Store
