import SourceAudit.Proofs.Syntax.Layout

/-!
The order of parameters. A parameter without a default is misplaced if one with a default stands
before it and no star form does (`Misplaced`). The check goes through the children of a parameter
list once; whether a default was seen is all that it remembers, and so all that the invariant of its
run has to say (`MisplacedAfter`). It reports the first misplaced parameter (`parameter_order`).
-/

namespace SourceAudit.Syntax

open SourceAudit.Concrete (Cursor)

/-! ### Roles -/

/-- The first named child collects the remaining arguments. -/
def WrapsSplat (n : Concrete) : Prop :=
  ∃ c ∈ n.namedChildren.head?,
    c.kind = "list_splat_pattern" ∨ c.kind = "dictionary_splat_pattern"

def HasDefault (n : Concrete) : Prop :=
  n.kind = "default_parameter" ∨ n.kind = "typed_default_parameter"

/-- A star form: all parameters after it are given by name. -/
def IsStar (n : Concrete) : Prop :=
  n.kind ∈ ["*", "**", "list_splat_pattern", "dictionary_splat_pattern", "keyword_separator"] ∨
    n.kind = "typed_parameter" ∧ WrapsSplat n

/-- A parameter without a default. -/
def IsPlain (n : Concrete) : Prop :=
  n.kind = "identifier" ∨ n.kind = "typed_parameter" ∧ ¬ WrapsSplat n

theorem isSplat_iff {n : Concrete} : isSplat n = true ↔ WrapsSplat n := by
  unfold isSplat WrapsSplat
  split
  · rename_i hnone
    simp [hnone]
  · rename_i c rest hcons
    simp [hcons]

theorem parameterRole_eq_withDefault {n : Concrete} :
    parameterRole n = .withDefault ↔ HasDefault n := by
  unfold parameterRole HasDefault
  split <;> simp_all
  split <;> simp

theorem parameterRole_eq_star {n : Concrete} : parameterRole n = .star ↔ IsStar n := by
  rw [IsStar, ← isSplat_iff]
  unfold parameterRole
  split <;> simp_all

theorem parameterRole_eq_plain {n : Concrete} : parameterRole n = .plain ↔ IsPlain n := by
  rw [IsPlain, ← isSplat_iff]
  unfold parameterRole
  split <;> simp_all

/-! ### Misplaced parameters -/

/-- A parameter without a default that follows one with a default, before any star form. -/
structure Misplaced (ps : List Concrete) (j : Nat) : Prop where
  plain : ∃ p, ps[j]? = some p ∧ IsPlain p
  default : ∃ i p, i < j ∧ ps[i]? = some p ∧ HasDefault p
  noStar : ∀ i p, i < j → ps[i]? = some p → ¬ IsStar p

/-- The same if a default may have been seen before the list. -/
structure MisplacedAfter (seen : Prop) (ps : List Concrete) (j : Nat) : Prop where
  plain : ∃ p, ps[j]? = some p ∧ IsPlain p
  default : seen ∨ ∃ i p, i < j ∧ ps[i]? = some p ∧ HasDefault p
  noStar : ∀ i p, i < j → ps[i]? = some p → ¬ IsStar p

theorem misplacedAfter_false {ps : List Concrete} {j : Nat} :
    MisplacedAfter (false = true) ps j ↔ Misplaced ps j := by
  constructor
  · rintro ⟨hplain, hdefault, hstar⟩
    exact ⟨hplain, by simpa using hdefault, hstar⟩
  · rintro ⟨hplain, hdefault, hstar⟩
    exact ⟨hplain, .inr hdefault, hstar⟩

theorem not_misplacedAfter_nil {seen : Prop} {j : Nat} : ¬ MisplacedAfter seen [] j := by
  rintro ⟨⟨p, hp, -⟩, -, -⟩
  cases hp

theorem misplacedAfter_zero {seen : Prop} {q : Concrete} {ps : List Concrete} :
    MisplacedAfter seen (q :: ps) 0 ↔ IsPlain q ∧ seen := by
  constructor
  · rintro ⟨⟨p, hp, hplain⟩, hdefault, -⟩
    cases hp
    exact ⟨hplain, by simpa using hdefault⟩
  · rintro ⟨hplain, hseen⟩
    exact ⟨⟨q, rfl, hplain⟩, .inl hseen, by simp⟩

/-- What the first child leaves to the others to say. -/
theorem misplacedAfter_succ {seen : Prop} {q : Concrete} {ps : List Concrete} {j : Nat} :
    MisplacedAfter seen (q :: ps) (j + 1) ↔
      ¬ IsStar q ∧ MisplacedAfter (seen ∨ HasDefault q) ps j := by
  constructor
  · rintro ⟨hplain, hdefault, hstar⟩
    refine ⟨hstar 0 q (by omega) rfl, hplain, ?_, ?_⟩
    · rcases hdefault with hseen | ⟨i, p, hi, hp, hdefault⟩
      · exact .inl (.inl hseen)
      · cases i with
        | zero =>
          cases hp
          exact .inl (.inr hdefault)
        | succ i => exact .inr ⟨i, p, by omega, hp, hdefault⟩
    · intro i p hi hp
      exact hstar (i + 1) p (by omega) hp
  · rintro ⟨hq, hplain, hdefault, hstar⟩
    refine ⟨hplain, ?_, ?_⟩
    · rcases hdefault with (hseen | hdefault) | ⟨i, p, hi, hp, hdefault⟩
      · exact .inl hseen
      · exact .inr ⟨0, q, by omega, rfl, hdefault⟩
      · exact .inr ⟨i + 1, p, by omega, hp, hdefault⟩
    · intro i p hi hp
      cases i with
      | zero =>
        cases hp
        exact hq
      | succ i => exact hstar i p (by omega) hp

/-! ### The run of the check -/

/-- The first misplaced parameter. -/
structure FirstMisplaced (seen : Prop) (ps : List Concrete) (j : Nat) (p : Concrete) : Prop where
  listed : ps[j]? = some p
  misplaced : MisplacedAfter seen ps j
  least : ∀ i, MisplacedAfter seen ps i → j ≤ i

/-- What the check says after it has seen a default or not, of the children that are left. -/
def Judges (seen : Prop) (ps : List Concrete) (result : Option Finding) : Prop :=
  (result = none ∧ ∀ j, ¬ MisplacedAfter seen ps j) ∨
    ∃ j p, FirstMisplaced seen ps j p ∧ result = some (p.start, .parameterWithoutDefault)

/-- One step over a child that is no star form and not misplaced itself. -/
theorem Judges.cons {seen : Prop} {q : Concrete} {ps : List Concrete} {result : Option Finding}
    (h : Judges (seen ∨ parameterRole q = .withDefault) ps result)
    (hplain : parameterRole q = .plain → ¬ seen) (hstar : parameterRole q ≠ .star) :
    Judges seen (q :: ps) result := by
  rw [parameterRole_eq_plain] at hplain
  rw [ne_eq, parameterRole_eq_star] at hstar
  simp only [parameterRole_eq_withDefault] at h
  have hfirst : ¬ MisplacedAfter seen (q :: ps) 0 := by
    intro h
    obtain ⟨hq, hseen⟩ := misplacedAfter_zero.mp h
    exact hplain hq hseen
  rcases h with ⟨hnone, hsound⟩ | ⟨j, p, ⟨hp, hmisplaced, hleast⟩, hsome⟩
  · refine .inl ⟨hnone, ?_⟩
    intro j hj
    cases j with
    | zero => exact hfirst hj
    | succ j => exact hsound j (misplacedAfter_succ.mp hj).2
  · refine .inr ⟨j + 1, p, ⟨hp, misplacedAfter_succ.mpr ⟨hstar, hmisplaced⟩, ?_⟩, hsome⟩
    intro i hi
    cases i with
    | zero => exact absurd hi hfirst
    | succ i => exact Nat.succ_le_succ (hleast i (misplacedAfter_succ.mp hi).2)

/-- A star form ends the search. -/
theorem Judges.star {seen : Prop} {q : Concrete} {ps : List Concrete}
    (hrole : parameterRole q = .star) : Judges seen (q :: ps) none := by
  refine .inl ⟨rfl, ?_⟩
  intro j hj
  cases j with
  | zero =>
    have hplain := parameterRole_eq_plain.mpr (misplacedAfter_zero.mp hj).1
    rw [hrole] at hplain
    cases hplain
  | succ j => exact (misplacedAfter_succ.mp hj).1 (parameterRole_eq_star.mp hrole)

theorem judges_checkParameterOrder (seenDefault : Bool) (ps : List Concrete) :
    Judges (seenDefault = true) ps (checkParameterOrder seenDefault ps) := by
  fun_induction checkParameterOrder seenDefault ps with
  | case1 => exact .inl ⟨rfl, fun j => not_misplacedAfter_nil⟩
  | case2 seenDefault p ps hrole ih =>
    exact Judges.cons (by simpa [hrole] using ih) (by simp [hrole]) (by simp [hrole])
  | case3 seenDefault p ps hrole => exact .star hrole
  | case4 p ps hrole =>
    have hplain : IsPlain p := parameterRole_eq_plain.mp hrole
    exact .inr ⟨0, p, ⟨rfl, misplacedAfter_zero.mpr ⟨hplain, rfl⟩, fun i _ => Nat.zero_le i⟩, rfl⟩
  | case5 seenDefault p ps hrole hseen ih =>
    exact Judges.cons (by simpa [hrole] using ih) (fun _ => hseen) (by simp [hrole])
  | case6 seenDefault p ps hrole ih =>
    exact Judges.cons (by simpa [hrole] using ih) (by simp [hrole]) (by simp [hrole])

theorem checkParameterOrder_append {seenDefault : Bool} {ps : List Concrete} {f : Finding}
    (h : checkParameterOrder seenDefault ps = some f) (more : List Concrete) :
    checkParameterOrder seenDefault (ps ++ more) = some f := by
  fun_induction checkParameterOrder seenDefault ps with
  | case1 => cases h
  | case2 seenDefault p ps hrole ih => simpa [checkParameterOrder, hrole] using ih h
  | case3 => cases h
  | case4 p ps hrole => simpa [checkParameterOrder, hrole] using h
  | case5 seenDefault p ps hrole hseen ih => simpa [checkParameterOrder, hrole, hseen] using ih h
  | case6 seenDefault p ps hrole ih => simpa [checkParameterOrder, hrole] using ih h

/-- A child without a role may be left out. -/
theorem checkParameterOrder_neutral {seenDefault : Bool} {before after : List Concrete}
    {separator : Concrete} (h : parameterRole separator = .neutral) :
    checkParameterOrder seenDefault (before ++ separator :: after) =
      checkParameterOrder seenDefault (before ++ after) := by
  induction before generalizing seenDefault with
  | nil => simp [checkParameterOrder, h]
  | cons p ps ih => simp [checkParameterOrder, ih]

theorem checkParameterOrder_cases (ps : List Concrete) :
    (checkParameterOrder false ps = none ∧ ∀ j, ¬ Misplaced ps j) ∨
      ∃ j p, ps[j]? = some p ∧ Misplaced ps j ∧ (∀ i, Misplaced ps i → j ≤ i) ∧
        checkParameterOrder false ps = some (p.start, .parameterWithoutDefault) := by
  rcases judges_checkParameterOrder false ps with h | ⟨j, p, ⟨hp, hmisplaced, hleast⟩, hsome⟩
  · simp only [misplacedAfter_false] at h
    exact .inl h
  · simp only [misplacedAfter_false] at hmisplaced hleast
    exact .inr ⟨j, p, hp, hmisplaced, hleast, hsome⟩

/-- A parameter list, of a function or a lambda expression. -/
def IsParameterList (n : Concrete) : Prop := n.kind = "parameters" ∨ n.kind = "lambda_parameters"

theorem check_parameters {text : List Char} {c : Cursor} (h : IsParameterList c.focus) :
    check text c = checkParameterOrder false c.focus.children := by
  rcases h with h | h
  · simp [check, h]
  · simp [check, h]

/-- A parameter list is accepted exactly if no parameter in it is misplaced; otherwise the first
misplaced parameter is reported. The separator behind positional parameters makes no difference, and
what is added at the end of the list does not change a report. -/
theorem parameter_order (ps : List Concrete) :
    (∀ text c, IsParameterList c.focus → c.focus.children = ps →
      check text c = checkParameterOrder false ps) ∧
    (checkParameterOrder false ps = none ↔ ∀ j, ¬ Misplaced ps j) ∧
    (∀ finding, checkParameterOrder false ps = some finding ↔
      ∃ j p, ps[j]? = some p ∧ Misplaced ps j ∧ (∀ i, Misplaced ps i → j ≤ i) ∧
        finding = (p.start, .parameterWithoutDefault)) ∧
    (∀ before separator after, ps = before ++ separator :: after →
      separator.kind = "positional_separator" →
        checkParameterOrder false (before ++ after) = checkParameterOrder false ps) ∧
    (∀ more finding, checkParameterOrder false ps = some finding →
      checkParameterOrder false (ps ++ more) = some finding) := by
  refine ⟨?_, ?_, ?_, ?_, fun more finding h => checkParameterOrder_append h more⟩
  · rintro text c hlist rfl
    exact check_parameters hlist
  · rcases checkParameterOrder_cases ps with ⟨hnone, hsound⟩ | ⟨j, p, -, hmisplaced, -, hsome⟩
    · exact iff_of_true hnone hsound
    · exact iff_of_false (by simp [hsome]) fun hsound => hsound j hmisplaced
  · intro finding
    rcases checkParameterOrder_cases ps with ⟨hnone, hsound⟩ | ⟨j, p, hp, hmisplaced, hleast, hsome⟩
    · refine iff_of_false (by simp [hnone]) ?_
      rintro ⟨j, -, -, hmisplaced, -⟩
      exact hsound j hmisplaced
    · rw [hsome]
      constructor
      · intro h
        exact ⟨j, p, hp, hmisplaced, hleast, (Option.some.inj h).symm⟩
      · rintro ⟨i, q, hq, hmisplaced', hleast', rfl⟩
        obtain rfl : i = j := Nat.le_antisymm (hleast' j hmisplaced) (hleast i hmisplaced')
        rw [Option.some.inj (hp.symm.trans hq)]
  · rintro before separator after rfl hkind
    have hneutral : parameterRole separator = .neutral := by simp [parameterRole, hkind]
    exact (checkParameterOrder_neutral hneutral).symm

/-- The separator in `(a=1, /, b: int, *args: int, c)`. -/
def separatorTree : Concrete :=
  soundNode "positional_separator" true none ⟨0, 11, 11⟩ ⟨0, 12, 12⟩ [
    soundNode "/" false none ⟨0, 11, 11⟩ ⟨0, 12, 12⟩ []]

/-- What stands before the separator. -/
def optionalPart : List Concrete :=
  [soundNode "(" false none ⟨0, 5, 5⟩ ⟨0, 6, 6⟩ [],
   soundNode "default_parameter" true none ⟨0, 6, 6⟩ ⟨0, 9, 9⟩ [
     soundNode "identifier" true (some "name") ⟨0, 6, 6⟩ ⟨0, 7, 7⟩ [],
     soundNode "=" false none ⟨0, 7, 7⟩ ⟨0, 8, 8⟩ [],
     soundNode "integer" true (some "value") ⟨0, 8, 8⟩ ⟨0, 9, 9⟩ []],
   soundNode "," false none ⟨0, 9, 9⟩ ⟨0, 10, 10⟩ []]

/-- What stands after the separator. -/
def requiredPart : List Concrete :=
  [soundNode "," false none ⟨0, 12, 12⟩ ⟨0, 13, 13⟩ [],
   soundNode "typed_parameter" true none ⟨0, 14, 14⟩ ⟨0, 20, 20⟩ [
     soundNode "identifier" true none ⟨0, 14, 14⟩ ⟨0, 15, 15⟩ [],
     soundNode ":" false none ⟨0, 15, 15⟩ ⟨0, 16, 16⟩ [],
     soundNode "type" true (some "type") ⟨0, 17, 17⟩ ⟨0, 20, 20⟩ [
       soundNode "identifier" true none ⟨0, 17, 17⟩ ⟨0, 20, 20⟩ []]],
   soundNode "," false none ⟨0, 20, 20⟩ ⟨0, 21, 21⟩ [],
   soundNode "typed_parameter" true none ⟨0, 22, 22⟩ ⟨0, 32, 32⟩ [
     soundNode "list_splat_pattern" true none ⟨0, 22, 22⟩ ⟨0, 27, 27⟩ [
       soundNode "*" false none ⟨0, 22, 22⟩ ⟨0, 23, 23⟩ [],
       soundNode "identifier" true none ⟨0, 23, 23⟩ ⟨0, 27, 27⟩ []],
     soundNode ":" false none ⟨0, 27, 27⟩ ⟨0, 28, 28⟩ [],
     soundNode "type" true (some "type") ⟨0, 29, 29⟩ ⟨0, 32, 32⟩ [
       soundNode "identifier" true none ⟨0, 29, 29⟩ ⟨0, 32, 32⟩ []]],
   soundNode "," false none ⟨0, 32, 32⟩ ⟨0, 33, 33⟩ [],
   soundNode "identifier" true none ⟨0, 34, 34⟩ ⟨0, 35, 35⟩ [],
   soundNode ")" false none ⟨0, 35, 35⟩ ⟨0, 36, 36⟩ []]

/-- `b` is reported, with the separator and without it, and whatever comes behind; `c` stands after
a star form. -/
theorem requiredPart_reported :
    checkParameterOrder false (optionalPart ++ separatorTree :: requiredPart) =
      some (⟨0, 14, 14⟩, .parameterWithoutDefault) ∧
    separatorTree.kind = "positional_separator" ∧
    checkParameterOrder false (optionalPart ++ requiredPart) =
      checkParameterOrder false (optionalPart ++ separatorTree :: requiredPart) ∧
    ∀ more, checkParameterOrder false (optionalPart ++ separatorTree :: requiredPart ++ more) =
      some (⟨0, 14, 14⟩, .parameterWithoutDefault) := by
  obtain ⟨-, -, -, hseparator, hmore⟩ :=
    parameter_order (optionalPart ++ separatorTree :: requiredPart)
  have hreported : checkParameterOrder false (optionalPart ++ separatorTree :: requiredPart) =
      some (⟨0, 14, 14⟩, .parameterWithoutDefault) := by decide +kernel
  exact ⟨hreported, rfl, hseparator optionalPart separatorTree requiredPart rfl rfl,
    fun more => hmore more _ hreported⟩

end SourceAudit.Syntax
