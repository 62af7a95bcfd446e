import SourceAudit.Proofs.Syntax.DocumentOrder
import SourceAudit.Proofs.Syntax.Slice

/-!
Places of parsed trees: every node of the tree of a text begins and ends at a place of that text
(`placedIn_ofChars`).
-/

namespace SourceAudit.Concrete

open SourceAudit.Parsing (Point Source parseChars)
open SourceAudit.Syntax (IsPlace mem_preorder placeAfter placeAfter_concat self_mem_preorder)

/-- All nodes of the tree begin and end in the text. -/
def PlacedIn (text : List Char) (t : Concrete) : Prop :=
  ∀ n ∈ t.preorder, IsPlace text n.start ∧ IsPlace text n.stop

instance (text : List Char) (t : Concrete) : Decidable (PlacedIn text t) :=
  inferInstanceAs (Decidable (∀ n ∈ t.preorder, IsPlace text n.start ∧ IsPlace text n.stop))

/-! ### The places of a source -/

theorem isPlace_zero (text : List Char) : IsPlace text ⟨0, 0, 0⟩ := ⟨[], text, rfl, rfl⟩

/-- Going on from the place after `done`, the places that are collected are places of the text. -/
theorem isPlace_collected (done cs : List Char) (ps : Array Point)
    (hps : ∀ p ∈ ps, IsPlace (done ++ cs) p) :
    (∀ p ∈ (cs.foldl (fun (ps, p) c => (ps.push p, Source.after p c)) (ps, placeAfter done)).1,
      IsPlace (done ++ cs) p) ∧
    (cs.foldl (fun (ps, p) c => (ps.push p, Source.after p c)) (ps, placeAfter done)).2 =
      placeAfter (done ++ cs) := by
  induction cs generalizing done ps with
  | nil => exact ⟨hps, by rw [List.append_nil]; rfl⟩
  | cons c cs ih =>
    have hsplit : done ++ c :: cs = (done ++ [c]) ++ cs := by simp
    have hpush : ∀ p ∈ ps.push (placeAfter done), IsPlace ((done ++ [c]) ++ cs) p := by
      intro p hp
      rw [← hsplit]
      rcases Array.mem_push.mp hp with hp | rfl
      · exact hps p hp
      · exact ⟨done, c :: cs, rfl, rfl⟩
    have hrest := ih (done ++ [c]) _ hpush
    rw [placeAfter_concat] at hrest
    rw [hsplit]
    exact hrest

theorem isPlace_point (text : List Char) (i : Nat) :
    IsPlace text ((Source.ofChars text).point i) := by
  obtain ⟨hpoints, hlast⟩ := isPlace_collected [] text #[] (by simp)
  have hall : ∀ p ∈ (Source.ofChars text).points, IsPlace text p := by
    intro p hp
    rcases Array.mem_push.mp hp with hp | rfl
    · exact hpoints p hp
    · exact ⟨text, [], by simp, hlast⟩
  rw [Source.point, Array.getD_eq_getD_getElem?]
  cases hget : (Source.ofChars text).points[i]? with
  | none => exact isPlace_zero text
  | some p => exact hall p (Array.mem_of_getElem? hget)

/-! ### The tree -/

theorem placedIn_node {text : List Char} {i : Info} {ts : List Concrete} :
    PlacedIn text (.node i ts) ↔
      (IsPlace text i.start ∧ IsPlace text i.stop) ∧ ∀ t ∈ ts, PlacedIn text t := by
  constructor
  · intro h
    refine ⟨h _ (self_mem_preorder _), ?_⟩
    intro t ht n hn
    exact h n (mem_preorder.mpr (.inr ⟨t, ht, hn⟩))
  · rintro ⟨hroot, hchildren⟩ n hn
    rcases mem_preorder.mp hn with rfl | ⟨t, ht, hn⟩
    · exact hroot
    · exact hchildren t ht n hn

/-- What is shown of a tree has places of the source, if what stands after it has. -/
theorem placedIn_expose (text : List Char) :
    (∀ rename field after t, (∀ n ∈ after, PlacedIn text n) →
      ∀ n ∈ expose (Source.ofChars text) rename field after t, PlacedIn text n) ∧
    (∀ steps slot outer after ts, (∀ n ∈ after, PlacedIn text n) →
      ∀ n ∈ exposeList (Source.ofChars text) steps slot outer after ts, PlacedIn text n) := by
  apply expose.mutual_induct
  case case1 =>
    intro rename field after i cs look hvisible ih hafter
    have hchildren := ih (by simp)
    unfold expose
    rw [if_pos hvisible, List.forall_mem_cons]
    refine ⟨placedIn_node.mpr ⟨⟨?_, ?_⟩, hchildren⟩, hafter⟩
    · exact isPlace_point text i.start
    · exact isPlace_point text i.stop
  case case2 =>
    intro rename field after i cs look hvisible ih hafter
    unfold expose
    rw [if_neg hvisible]
    exact ih hafter
  case case3 =>
    intro steps slot outer after hafter
    rw [exposeList]
    exact hafter
  case case4 =>
    intro steps slot outer after i cs rest hextra ihrest ihtree hafter
    rw [exposeList, if_pos hextra]
    exact ihtree (ihrest hafter)
  case case5 =>
    intro steps slot outer after i cs rest hextra step ihrest ihtree hafter
    rw [exposeList, if_neg hextra]
    exact ihtree (ihrest hafter)

/-- The nodes of a parsed tree are in the text. -/
theorem placedIn_ofChars (text : List Char) : PlacedIn text (ofChars text) := by
  have hfailed : PlacedIn text failed :=
    placedIn_node.mpr ⟨⟨isPlace_zero text, isPlace_zero text⟩, by simp⟩
  have hsource : (parseChars text).1 = Source.ofChars text := rfl
  unfold ofChars
  split
  · exact hfailed
  · rename_i src t hparse
    rw [hparse] at hsource
    obtain rfl : src = Source.ofChars text := hsource
    have hall := (placedIn_expose text).1 none none [] t (by simp)
    cases hshown : expose (Source.ofChars text) none none [] t with
    | nil => exact hfailed
    | cons n ns => exact hall n (by rw [hshown]; exact List.mem_cons_self)

end SourceAudit.Concrete
