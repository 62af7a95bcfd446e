import Mathlib.Data.List.Basic
import SourceAudit.Text.Newline

/-!
Line ends made line feeds. The two replacements, of pairs first and of single returns then, and the
shortcut for texts without returns come to one pass over the text that looks one character ahead
(`normalizeNewlines_eq_onePass`). It can be done piece by piece exactly where no pair is cut
(`normalizeNewlines_append`), and it takes back every way to write the line feeds of a text in which
no two endings run together (`normalizeNewlines_written`).
-/

namespace SourceAudit.Text

/-! ### One pass -/

/-- One pass over a text: a carriage return becomes a line feed, together with a line feed that
follows it, and all else is kept. -/
def onePass : List Char → List Char
  | [] => []
  | '\r' :: '\n' :: cs => '\n' :: onePass cs
  | '\r' :: cs => '\n' :: onePass cs
  | c :: cs => c :: onePass cs

theorem onePass_pair (cs : List Char) : onePass ('\r' :: '\n' :: cs) = '\n' :: onePass cs := by
  rw [onePass]

theorem onePass_return {cs : List Char} (h : cs.head? ≠ some '\n') :
    onePass ('\r' :: cs) = '\n' :: onePass cs := by
  rw [onePass]
  rintro rest rfl
  exact h rfl

theorem onePass_cons {c : Char} (h : c ≠ '\r') (cs : List Char) :
    onePass (c :: cs) = c :: onePass cs := by
  rw [onePass]
  · exact fun _ hc _ => h hc
  · exact h

/-- Induction along the pass. -/
theorem passInduction {P : List Char → Prop} (nil : P [])
    (pair : ∀ cs, P cs → P ('\r' :: '\n' :: cs))
    (single : ∀ cs, cs.head? ≠ some '\n' → P cs → P ('\r' :: cs))
    (other : ∀ c cs, c ≠ '\r' → P cs → P (c :: cs)) (cs : List Char) : P cs := by
  induction cs using onePass.induct with
  | case1 => exact nil
  | case2 cs ih => exact pair cs ih
  | case3 cs hcs ih =>
    refine single cs ?_ ih
    intro hhead
    obtain ⟨rest, rfl⟩ := List.head?_eq_some_iff.mp hhead
    exact hcs rest rfl
  | case4 c cs _ hc ih => exact other c cs hc ih

theorem onePass_eq_self {cs : List Char} (h : '\r' ∉ cs) : onePass cs = cs := by
  induction cs with
  | nil => rfl
  | cons c cs ih =>
    rw [List.mem_cons, not_or] at h
    rw [onePass_cons (Ne.symm h.1), ih h.2]

/-- The two replacements, one after the other. -/
theorem map_joinPairs (cs : List Char) : (joinPairs cs).map feedForReturn = onePass cs := by
  induction cs using passInduction with
  | nil => rfl
  | pair cs ih =>
    rw [joinPairs, List.map_cons, ih, onePass_pair]
    rfl
  | single cs hcs ih =>
    have hjoin : joinPairs ('\r' :: cs) = '\r' :: joinPairs cs := by
      rw [joinPairs]
      rintro rest - rfl
      exact hcs rfl
    rw [hjoin, List.map_cons, ih, onePass_return hcs]
    rfl
  | other c cs hc ih =>
    have hjoin : joinPairs (c :: cs) = c :: joinPairs cs := by
      rw [joinPairs]
      exact fun _ heq _ => hc heq
    rw [hjoin, List.map_cons, ih, onePass_cons hc, feedForReturn, if_neg hc]

theorem normalizeNewlines_eq_onePass (cs : List Char) : normalizeNewlines cs = onePass cs := by
  unfold normalizeNewlines
  split
  · exact map_joinPairs cs
  · rename_i hnone
    exact (onePass_eq_self fun hmem => hnone (List.contains_iff_mem.mpr hmem)).symm

theorem return_not_mem (cs : List Char) : '\r' ∉ normalizeNewlines cs := by
  rw [normalizeNewlines_eq_onePass]
  induction cs using passInduction with
  | nil => simp [onePass]
  | pair cs ih => simp [onePass_pair, ih]
  | single cs hcs ih => simp [onePass_return hcs, ih]
  | other c cs hc ih => simp [onePass_cons hc, ih, Ne.symm hc]

theorem normalizeNewlines_twice (cs : List Char) :
    normalizeNewlines (normalizeNewlines cs) = normalizeNewlines cs := by
  rw [normalizeNewlines_eq_onePass (normalizeNewlines cs), onePass_eq_self (return_not_mem cs)]

/-! ### Piece by piece -/

/-- A pair of a carriage return and a line feed is cut between the two texts. -/
def CutsPair (as bs : List Char) : Prop := as.getLast? = some '\r' ∧ bs.head? = some '\n'

theorem CutsPair.cons {as bs : List Char} (h : CutsPair as bs) (c : Char) :
    CutsPair (c :: as) bs := by
  refine ⟨?_, h.2⟩
  rw [List.getLast?_cons, h.1, Option.getD_some]

theorem onePass_append {as bs : List Char} (h : ¬ CutsPair as bs) :
    onePass (as ++ bs) = onePass as ++ onePass bs := by
  induction as using passInduction with
  | nil => rfl
  | pair as ih =>
    have hrest := ih fun hcut => h ((hcut.cons '\n').cons '\r')
    rw [List.cons_append, List.cons_append, onePass_pair, onePass_pair, hrest, List.cons_append]
  | single as has ih =>
    have hhead : (as ++ bs).head? ≠ some '\n' := by
      cases as with
      | nil => exact fun hbs => h ⟨rfl, hbs⟩
      | cons a as => exact has
    rw [List.cons_append, onePass_return hhead, onePass_return has,
      ih fun hcut => h (hcut.cons '\r'), List.cons_append]
  | other c as hc ih =>
    rw [List.cons_append, onePass_cons hc, onePass_cons hc, ih fun hcut => h (hcut.cons c),
      List.cons_append]

/-- Of a pair that is cut, both halves become line feeds. -/
theorem onePass_append_ne {as bs : List Char} (h : CutsPair as bs) :
    onePass (as ++ bs) ≠ onePass as ++ onePass bs := by
  obtain ⟨hlast, hhead⟩ := h
  obtain ⟨front, rfl⟩ := List.getLast?_eq_some_iff.mp hlast
  obtain ⟨rest, rfl⟩ := List.head?_eq_some_iff.mp hhead
  have hfront (cs : List Char) :
      onePass (front ++ '\r' :: cs) = onePass front ++ onePass ('\r' :: cs) :=
    onePass_append fun hcut => absurd hcut.2 (by simp)
  have hfeed := onePass_cons (c := '\n') (by decide) rest
  rw [List.append_assoc, List.singleton_append, hfront, hfront, onePass_pair, hfeed]
  intro heq
  have hlength := congrArg List.length heq
  simp [onePass] at hlength

/-- A text can be normalized piece by piece exactly where no pair is cut. -/
theorem normalizeNewlines_append (as bs : List Char) :
    normalizeNewlines (as ++ bs) = normalizeNewlines as ++ normalizeNewlines bs ↔
      ¬ CutsPair as bs := by
  simp only [normalizeNewlines_eq_onePass]
  exact ⟨fun heq hcut => onePass_append_ne hcut heq, onePass_append⟩

/-! ### Line endings -/

/-- How the end of a line is written. -/
inductive Ending where
  | feed
  | pair
  | single
  deriving DecidableEq

def Ending.text : Ending → List Char
  | .feed => ['\n']
  | .pair => ['\r', '\n']
  | .single => ['\r']

/-- The text with its line feeds written as the given endings, one after the other. -/
def written (endings : Nat → Ending) : List Char → List Char
  | [] => []
  | c :: cs =>
    if c = '\n' then (endings 0).text ++ written (fun n => endings (n + 1)) cs
    else c :: written endings cs

theorem written_feed (text : List Char) : written (fun _ => .feed) text = text := by
  induction text with
  | nil => rfl
  | cons c cs ih =>
    rw [written, ih]
    split
    · rename_i hc
      rw [hc]
      rfl
    · rfl

/-- Nowhere a line feed directly follows a single carriage return, so that the two endings would be
taken for one. -/
def KeepsApart (endings : Nat → Ending) (text : List Char) : Prop :=
  ∀ before after, text = before ++ '\n' :: '\n' :: after →
    ¬ (endings (before.count '\n') = .single ∧ endings (before.count '\n' + 1) = .feed)

theorem KeepsApart.cons {endings : Nat → Ending} {c : Char} {cs : List Char} (hc : c ≠ '\n')
    (h : KeepsApart endings (c :: cs)) : KeepsApart endings cs := by
  rintro before after rfl
  have := h (c :: before) after rfl
  rwa [List.count_cons_of_ne hc] at this

theorem KeepsApart.after_feed {endings : Nat → Ending} {cs : List Char}
    (h : KeepsApart endings ('\n' :: cs)) : KeepsApart (fun n => endings (n + 1)) cs := by
  rintro before after rfl
  have := h ('\n' :: before) after rfl
  rwa [List.count_cons_self] at this

/-- Endings of one sort do not run together. -/
theorem keepsApart_const (e : Ending) (text : List Char) : KeepsApart (fun _ => e) text := by
  rintro before after - ⟨hsingle, hfeed⟩
  rw [hsingle] at hfeed
  cases hfeed

/-- After a single return the written text does not go on with a line feed. -/
theorem KeepsApart.head_written {endings : Nat → Ending} {cs : List Char}
    (h : KeepsApart endings ('\n' :: cs)) (hsingle : endings 0 = .single) :
    (written (fun n => endings (n + 1)) cs).head? ≠ some '\n' := by
  cases cs with
  | nil => exact nofun
  | cons c cs =>
    rw [written]
    split
    · rename_i hc
      subst hc
      have hnext : endings 1 ≠ .feed := fun hfeed => h [] cs rfl ⟨hsingle, hfeed⟩
      cases hending : endings (0 + 1) with
      | feed => exact absurd hending hnext
      | pair => simp [Ending.text]
      | single => simp [Ending.text]
    · rename_i hc
      simpa using hc

/-- However the line feeds of a text are written, they are read back. -/
theorem normalizeNewlines_written {endings : Nat → Ending} {text : List Char} (hreturn : '\r' ∉ text)
    (h : KeepsApart endings text) : normalizeNewlines (written endings text) = text := by
  rw [normalizeNewlines_eq_onePass]
  induction text generalizing endings with
  | nil => rfl
  | cons c cs ih =>
    rw [List.mem_cons, not_or] at hreturn
    rw [written]
    split
    · rename_i hc
      subst hc
      have hrest := ih hreturn.2 h.after_feed
      cases hending : endings 0 with
      | feed => exact (onePass_cons (by decide) _).trans (congrArg _ hrest)
      | pair => exact (onePass_pair _).trans (congrArg _ hrest)
      | single => exact (onePass_return (h.head_written hending)).trans (congrArg _ hrest)
    · rename_i hc
      rw [onePass_cons (Ne.symm hreturn.1), ih hreturn.2 (h.cons hc)]

-- A single return and a line feed that run together are read as one line end.
example : normalizeNewlines (written (fun n => if n = 0 then .single else .feed) ['\n', '\n']) =
    ['\n'] := by decide

end SourceAudit.Text
