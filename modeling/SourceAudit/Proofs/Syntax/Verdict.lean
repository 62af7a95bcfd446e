import SourceAudit.Proofs.Concrete.Cursor
import SourceAudit.Syntax.Parse

/-!
The verdict on a source. A node that makes the source invalid by itself is reported before all
structural problems, and of each sort the first in pre-order; only a source with neither has a
syntax tree (`judge_verdict`).
-/

namespace SourceAudit.Syntax

open SourceAudit.Concrete (Cursor cursors)
open SourceAudit.Concrete.Cursor (LoopRun ofRoot upToHit)

/-- A node that makes a source invalid by itself. -/
def IsProblem (n : Concrete) : Prop :=
  n.info.missing = true ∨ n.info.error = true ∨ n.kind = "print_statement" ∨
    n.kind = "exec_statement"

theorem nodeProblem?_eq_none {n : Concrete} : nodeProblem? n = none ↔ ¬ IsProblem n := by
  unfold nodeProblem? IsProblem
  by_cases hmissing : n.info.missing = true
  · simp [hmissing]
  · by_cases herror : n.info.error = true
    · simp [hmissing, herror]
    · by_cases hprint : n.kind = "print_statement"
      · simp [hmissing, herror, hprint]
      · by_cases hexec : n.kind = "exec_statement"
        · simp [hmissing, herror, hexec]
        · simp [hmissing, herror, hprint, hexec]

theorem firstSyntaxProblem?_eq (t : Concrete) :
    firstSyntaxProblem? t =
      t.preorder.findSome? fun n => (nodeProblem? n).map fun p => (n.start, p) :=
  Cursor.scan_focus (fun n => (nodeProblem? n).map fun p => (n.start, p)) t

theorem firstSyntaxProblem?_eq_none {t : Concrete} :
    firstSyntaxProblem? t = none ↔ ∀ n ∈ t.preorder, ¬ IsProblem n := by
  simp only [firstSyntaxProblem?_eq, List.findSome?_eq_none_iff, Option.map_eq_none_iff,
    nodeProblem?_eq_none]

theorem firstSyntaxProblem?_first {t n : Concrete} {before after : List Concrete} {p : Problem}
    (ht : t.preorder = before ++ n :: after) (hbefore : ∀ m ∈ before, ¬ IsProblem m)
    (hn : nodeProblem? n = some p) : firstSyntaxProblem? t = some (n.start, p) := by
  rw [firstSyntaxProblem?_eq, ht, List.findSome?_append, List.findSome?_cons, hn]
  have hnone : before.findSome? (fun n => (nodeProblem? n).map fun p => (n.start, p)) = none := by
    simpa only [List.findSome?_eq_none_iff, Option.map_eq_none_iff, nodeProblem?_eq_none]
      using hbefore
  rw [hnone]
  rfl

theorem firstStructuralProblem?_eq (text : List Char) (t : Concrete) :
    firstStructuralProblem? text t = (cursors t).findSome? (check text) :=
  Cursor.scan_ofRoot (check text) t

theorem firstStructuralProblem?_first {text : List Char} {t : Concrete} {c : Cursor}
    {before after : List Cursor} {f : Finding} (ht : cursors t = before ++ c :: after)
    (hbefore : ∀ b ∈ before, check text b = none) (hc : check text c = some f) :
    firstStructuralProblem? text t = some f := by
  have hnone := List.findSome?_eq_none_iff.mpr hbefore
  rw [firstStructuralProblem?_eq, ht, List.findSome?_append, hnone, List.findSome?_cons, hc]
  rfl

theorem judge_eq_ok {text : List Char} {t : Concrete} {tree : Node} :
    judge text t = .ok tree ↔
      (∀ n ∈ t.preorder, ¬ IsProblem n) ∧ (∀ c ∈ cursors t, check text c = none) ∧
        tree = lower text t := by
  rw [← firstSyntaxProblem?_eq_none, ← List.findSome?_eq_none_iff, ← firstStructuralProblem?_eq]
  unfold judge
  split
  · rename_i hproblem
    simp [hproblem]
  · rename_i hproblem
    split
    · rename_i hstructural
      simp [hstructural]
    · rename_i hstructural
      simp [hproblem, hstructural, eq_comm]

/-- The verdict on every concrete syntax tree, and how it is come by. A node that is a problem by
itself is reported, the first in pre-order; if there is none, the first failed check is; and if all
checks pass, and only then, the verdict is the syntax tree. Both scans end, and until their first hit
they ask at the nodes of the tree one after another, at each node once. -/
theorem judge_verdict (text : List Char) (t : Concrete) :
    (∀ source : String, withoutMark source.toList = text → Concrete.ofChars text = t →
      parse source = judge text t) ∧
    (∀ before n after, t.preorder = before ++ n :: after → (∀ m ∈ before, ¬ IsProblem m) →
      IsProblem n → ∃ p, nodeProblem? n = some p ∧
        judge text t = .error (errorAt text (n.start, p))) ∧
    ((∀ n ∈ t.preorder, ¬ IsProblem n) → ∀ before c after f, cursors t = before ++ c :: after →
      (∀ b ∈ before, check text b = none) → check text c = some f →
        judge text t = .error (errorAt text f)) ∧
    (∀ tree, judge text t = .ok tree ↔
      (∀ n ∈ t.preorder, ¬ IsProblem n) ∧ (∀ c ∈ cursors t, check text c = none) ∧
        tree = lower text t) ∧
    (LoopRun (fun c => (nodeProblem? c.focus).map fun p => (c.focus.start, p)) (.at (ofRoot t))
        (upToHit (fun c => (nodeProblem? c.focus).map fun p => (c.focus.start, p)) (cursors t))
        (firstSyntaxProblem? t) ∧
      LoopRun (check text) (.at (ofRoot t)) (upToHit (check text) (cursors t))
        (firstStructuralProblem? text t)) ∧
    (cursors t).map Cursor.focus = t.preorder ∧ (cursors t).Nodup ∧
      ∀ c, c ∈ cursors t ↔ c.root = t := by
  refine ⟨?_, ?_, ?_, fun tree => judge_eq_ok,
    ⟨Cursor.loopRun_ofRoot _ t, Cursor.loopRun_ofRoot _ t⟩, Concrete.map_focus_cursors t,
    Concrete.nodup_cursors t, fun c => Concrete.mem_cursors⟩
  · rintro source rfl rfl
    rfl
  · intro before n after ht hbefore hn
    cases hp : nodeProblem? n with
    | none => exact absurd hn (nodeProblem?_eq_none.mp hp)
    | some p =>
      refine ⟨p, rfl, ?_⟩
      rw [judge, firstSyntaxProblem?_first ht hbefore hp]
  · intro hnone before c after f ht hbefore hc
    rw [judge, firstSyntaxProblem?_eq_none.mpr hnone, firstStructuralProblem?_first ht hbefore hc]

end SourceAudit.Syntax
