import Mathlib.Data.List.TakeWhile

/-!
Runs of characters of a class. What is taken from a text while its characters are of the class, and
what is left, does not depend on a text behind it that does not go on with such a character
(`takeWhile_append_stops`, `dropWhile_append_stops`); a run before such a text is taken as a whole.
-/

namespace SourceAudit.Text

/-- The text does not go on with a character of the class. -/
def Stops (p : Char → Bool) (cs : List Char) : Prop := ∀ c ∈ cs.head?, p c = false

variable {p q : Char → Bool} {run rest : List Char}

theorem stops_nil : Stops p [] := nofun

theorem stops_cons {c : Char} (h : p c = false) (cs : List Char) : Stops p (c :: cs) := by
  rintro d ⟨⟩
  exact h

theorem Stops.behind_run (hrun : ∀ c ∈ run, p c = true) (hdisjoint : ∀ c, p c = true → q c = false)
    (hrest : Stops q rest) : Stops q (run ++ rest) := by
  cases run with
  | nil => exact hrest
  | cons c run => exact stops_cons (hdisjoint c (hrun c List.mem_cons_self)) _

theorem Stops.takeWhile_eq_nil (h : Stops p rest) : rest.takeWhile p = [] := by
  cases rest with
  | nil => rfl
  | cons c rest => exact List.takeWhile_cons_of_neg (by simp [h c rfl])

theorem Stops.dropWhile_eq_self (h : Stops p rest) : rest.dropWhile p = rest := by
  cases rest with
  | nil => rfl
  | cons c rest => exact List.dropWhile_cons_of_neg (by simp [h c rfl])

theorem takeWhile_append_stops (h : Stops p rest) (cs : List Char) :
    (cs ++ rest).takeWhile p = cs.takeWhile p := by
  induction cs with
  | nil => exact h.takeWhile_eq_nil
  | cons c cs ih => cases hc : p c <;> simp [hc, ih]

theorem dropWhile_append_stops (h : Stops p rest) (cs : List Char) :
    (cs ++ rest).dropWhile p = cs.dropWhile p ++ rest := by
  induction cs with
  | nil => exact h.dropWhile_eq_self
  | cons c cs ih => cases hc : p c <;> simp [hc, ih]

theorem takeWhile_run (hrun : ∀ c ∈ run, p c = true) (hrest : Stops p rest) :
    (run ++ rest).takeWhile p = run := by
  rw [takeWhile_append_stops hrest, List.takeWhile_eq_self_iff.mpr hrun]

theorem dropWhile_run (hrun : ∀ c ∈ run, p c = true) (hrest : Stops p rest) :
    (run ++ rest).dropWhile p = rest := by
  rw [dropWhile_append_stops hrest, List.dropWhile_eq_nil_iff.mpr hrun, List.nil_append]

end SourceAudit.Text
