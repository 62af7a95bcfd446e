import SourceAudit.Proofs.Syntax.Trivia

/-!
Targets of deletions. What a `del` statement deletes are the nodes that are left when all groups of
targets, however deep, are opened (`LeafTarget`). The check searches the groups for a target that
cannot be deleted and stops at the first one; this is the first in pre-order among all targets of
the statement (`delete_targets`).
-/

namespace SourceAudit.Syntax

open SourceAudit.Concrete (Cursor cursors)
open SourceAudit.Concrete.Cursor (ofRoot)

/-! ### Targets -/

/-- The kinds of nodes that hold targets and are none themselves. -/
def groupKinds : List String :=
  ["expression_list", "tuple", "list", "parenthesized_expression", "pattern_list", "tuple_pattern",
    "list_pattern"]

/-- The kinds of targets that can be deleted. -/
def deletableKinds : List String := ["identifier", "attribute", "subscript"]

/-- The nodes that are reached from a node by going to named children that are no trivia, first from
the node itself and then from groups only. -/
inductive Reached (s : Cursor) : Cursor → Prop
  | part {d : Cursor} (hd : d.parent? = some s) (hnamed : d.focus.info.named = true)
      (htrivia : d.focus.isTrivia = false) : Reached s d
  | inside {c d : Cursor} (hc : Reached s c) (hgroup : c.focus.kind ∈ groupKinds)
      (hd : d.parent? = some c) (hnamed : d.focus.info.named = true)
      (htrivia : d.focus.isTrivia = false) : Reached s d

/-- A node that is reached and is no group. -/
structure LeafTarget (s c : Cursor) : Prop where
  reached : Reached s c
  leaf : c.focus.kind ∉ groupKinds

theorem groupsTargets_iff {n : Concrete} : groupsTargets n = true ↔ n.kind ∈ groupKinds := by
  rw [groupsTargets, List.contains_iff_mem]
  rfl

theorem isDeletable_iff {n : Concrete} : isDeletable n = true ↔ n.kind ∈ deletableKinds := by
  simp [isDeletable, deletableKinds, or_assoc]

theorem not_deletable_of_group {kind : String} (h : kind ∈ groupKinds) : kind ∉ deletableKinds := by
  revert kind
  decide

/-! ### Targets as a list -/

/-- The targets below a node, from left to right. -/
def leafTargets (c : Cursor) : List Cursor :=
  (partsOf c).attach.flatMap fun d =>
    if d.1.focus.kind ∈ groupKinds then leafTargets d.1 else [d.1]
termination_by c.focus.size
decreasing_by
  exact size_child_lt (List.mem_of_mem_filter d.2)

/-- What a node adds to the targets: those below it if it is a group, else the node itself. -/
def targetsAt (c : Cursor) : List Cursor :=
  if c.focus.kind ∈ groupKinds then leafTargets c else [c]

theorem leafTargets_eq (c : Cursor) : leafTargets c = (partsOf c).flatMap targetsAt := by
  rw [leafTargets, List.flatMap_subtype (g := targetsAt) fun d hd => rfl, List.unattach_attach]

theorem targetsAt_of_group {c : Cursor} (h : c.focus.kind ∈ groupKinds) :
    targetsAt c = leafTargets c := if_pos h

theorem targetsAt_of_leaf {c : Cursor} (h : c.focus.kind ∉ groupKinds) : targetsAt c = [c] :=
  if_neg h

theorem mem_partsOf {c d : Cursor} :
    d ∈ partsOf c ↔
      d.parent? = some c ∧ d.focus.info.named = true ∧ d.focus.isTrivia = false := by
  rw [partsOf, List.mem_filter, Cursor.mem_children, Bool.and_eq_true, Bool.not_eq_true']

theorem targetsAt_subset {c d : Cursor} (h : d ∈ partsOf c) : targetsAt d ⊆ leafTargets c := by
  intro e he
  rw [leafTargets_eq]
  exact List.mem_flatMap.mpr ⟨d, h, he⟩

/-- The targets below a node stand in pre-order, if those at its children do. -/
theorem leafTargets_sublist {c : Cursor}
    (h : ∀ d ∈ c.children, (targetsAt d).Sublist d.subtree) :
    (leafTargets c).Sublist c.subtree := by
  have hparts : (partsOf c).Sublist c.children := List.filter_sublist
  have hbelow := List.Sublist.flatMap_right (partsOf c) fun d hd => h d (hparts.subset hd)
  rw [leafTargets_eq, Cursor.subtree_eq]
  exact (hbelow.trans (hparts.flatMap _)).cons c

theorem targetsAt_sublist (c : Cursor) : (targetsAt c).Sublist c.subtree := by
  induction c using Cursor.inductionOn with
  | step c ih =>
    by_cases hgroup : c.focus.kind ∈ groupKinds
    · rw [targetsAt_of_group hgroup]
      exact leafTargets_sublist ih
    · rw [targetsAt_of_leaf hgroup]
      exact List.singleton_sublist.mpr (Cursor.self_mem_subtree c)

/-! ### The targets are those of the list -/

theorem Reached.trans {s c d : Cursor} (hc : Reached s c) (hgroup : c.focus.kind ∈ groupKinds)
    (hd : Reached c d) : Reached s d := by
  induction hd with
  | part hd hnamed htrivia => exact .inside hc hgroup hd hnamed htrivia
  | inside _ hinner hd hnamed htrivia ih => exact .inside ih hinner hd hnamed htrivia

theorem LeafTarget.of_mem {s c : Cursor} (h : c ∈ leafTargets s) : LeafTarget s c := by
  induction s using Cursor.inductionOn with
  | step s ih =>
    rw [leafTargets_eq, List.mem_flatMap] at h
    obtain ⟨d, hd, hc⟩ := h
    obtain ⟨hparent, hnamed, htrivia⟩ := mem_partsOf.mp hd
    have hreached : Reached s d := .part hparent hnamed htrivia
    by_cases hgroup : d.focus.kind ∈ groupKinds
    · rw [targetsAt_of_group hgroup] at hc
      obtain ⟨hbelow, hleaf⟩ := ih d (Cursor.mem_children.mpr hparent) hc
      exact ⟨hreached.trans hgroup hbelow, hleaf⟩
    · rw [targetsAt_of_leaf hgroup, List.mem_singleton] at hc
      subst hc
      exact ⟨hreached, hgroup⟩

theorem Reached.targetsAt_subset {s c : Cursor} (h : Reached s c) :
    targetsAt c ⊆ leafTargets s := by
  induction h with
  | part hd hnamed htrivia => exact Syntax.targetsAt_subset (mem_partsOf.mpr ⟨hd, hnamed, htrivia⟩)
  | inside hc hgroup hd hnamed htrivia ih =>
    rw [targetsAt_of_group hgroup] at ih
    exact List.Subset.trans
      (Syntax.targetsAt_subset (mem_partsOf.mpr ⟨hd, hnamed, htrivia⟩)) ih

theorem mem_leafTargets {s c : Cursor} : c ∈ leafTargets s ↔ LeafTarget s c := by
  constructor
  · exact LeafTarget.of_mem
  · rintro ⟨hreached, hleaf⟩
    apply hreached.targetsAt_subset
    rw [targetsAt_of_leaf hleaf]
    exact List.mem_cons_self

/-! ### The search -/

/-- Whether the target under a cursor cannot be deleted. -/
def isBadTarget (c : Cursor) : Bool := !isDeletable c.focus

theorem isBadTarget_iff {c : Cursor} : isBadTarget c = true ↔ c.focus.kind ∉ deletableKinds := by
  rw [isBadTarget, Bool.not_eq_true', Bool.eq_false_iff, ne_eq, isDeletable_iff]

theorem invalidTargetIn?_eq_findSome? (cs : List Concrete) :
    invalidTargetIn? cs =
      (cs.filter fun c => c.info.named && !c.isTrivia).findSome? invalidTarget? := by
  induction cs with
  | nil => rfl
  | cons c cs ih =>
    rw [invalidTargetIn?, List.filter_cons, ih]
    split
    · rw [List.findSome?_cons]
      cases invalidTarget? c <;> rfl
    · rfl

theorem findSome?_congr {α β : Type} {f g : α → Option β} {l : List α}
    (h : ∀ a ∈ l, f a = g a) : l.findSome? f = l.findSome? g := by
  induction l with
  | nil => rfl
  | cons a l ih =>
    rw [List.findSome?_cons, List.findSome?_cons, h a (by simp), ih fun b hb => h b (by simp [hb])]

/-- The search among the children of a node, if it is right about each child. -/
theorem invalidTargetIn?_children {c : Cursor}
    (h : ∀ d ∈ c.children, invalidTarget? d.focus =
      ((targetsAt d).find? isBadTarget).map Cursor.focus) :
    invalidTargetIn? c.focus.children =
      ((leafTargets c).find? isBadTarget).map Cursor.focus := by
  rw [invalidTargetIn?_eq_findSome?, focus_children, List.filter_map, List.findSome?_map,
    leafTargets_eq, List.find?_flatMap, List.map_findSome?]
  exact findSome?_congr fun d hd => h d (List.mem_of_mem_filter hd)

theorem invalidTarget?_focus (c : Cursor) :
    invalidTarget? c.focus = ((targetsAt c).find? isBadTarget).map Cursor.focus := by
  induction c using Cursor.inductionOn with
  | step c ih =>
    rw [invalidTarget?_eq]
    by_cases hgroup : c.focus.kind ∈ groupKinds
    · have hplain : ¬ isDeletable c.focus = true :=
        fun h => not_deletable_of_group hgroup (isDeletable_iff.mp h)
      rw [if_neg hplain, if_pos (groupsTargets_iff.mpr hgroup), targetsAt_of_group hgroup]
      exact invalidTargetIn?_children ih
    · rw [if_neg (fun h => hgroup (groupsTargets_iff.mp h)), targetsAt_of_leaf hgroup,
        List.find?_singleton, isBadTarget]
      cases isDeletable c.focus <;> rfl

theorem checkDeleteTargets_eq (t : Concrete) :
    checkDeleteTargets t = ((leafTargets (ofRoot t)).find? isBadTarget).map fun c =>
      (c.focus.start, if c.focus.kind = "call" then .deletesCall else .deletesExpression) := by
  have hsearch : invalidTargetIn? t.children = _ :=
    invalidTargetIn?_children fun d (_ : d ∈ (ofRoot t).children) => invalidTarget?_focus d
  rw [checkDeleteTargets, hsearch, Option.map_map]
  rfl

/-! ### First in pre-order -/

/-- A part of a list without repetitions is what a filter for its members leaves. -/
theorem filter_mem_of_sublist {α : Type} [DecidableEq α] {l l' : List α} (h : l'.Sublist l)
    (hl : l.Nodup) : l.filter (· ∈ l') = l' := by
  induction h with
  | slnil => rfl
  | @cons l' l a h ih =>
    obtain ⟨ha, hl⟩ := List.nodup_cons.mp hl
    have hout : a ∉ l' := fun hmem => ha (h.subset hmem)
    rw [List.filter_cons_of_neg (by simpa using hout), ih hl]
  | @cons_cons l' l a h ih =>
    obtain ⟨ha, hl⟩ := List.nodup_cons.mp hl
    have hrest : l.filter (· ∈ a :: l') = l.filter (· ∈ l') := by
      apply List.filter_congr
      intro b hb
      have hne : b ≠ a := fun heq => ha (heq ▸ hb)
      simp [hne]
    rw [List.filter_cons_of_pos (by simp), hrest, ih hl]

/-- The first target of a statement, in pre-order, that cannot be deleted. -/
structure FirstBadTarget (statement : Concrete) (c : Cursor) : Prop where
  target : LeafTarget (ofRoot statement) c
  bad : c.focus.kind ∉ deletableKinds
  first : ∃ before after, cursors statement = before ++ c :: after ∧
    ∀ b ∈ before, LeafTarget (ofRoot statement) b → b.focus.kind ∈ deletableKinds

theorem find?_leafTargets (t : Concrete) (c : Cursor) :
    (leafTargets (ofRoot t)).find? isBadTarget = some c ↔ FirstBadTarget t c := by
  classical
  have hsublist : (leafTargets (ofRoot t)).Sublist (cursors t) :=
    leafTargets_sublist fun d _ => targetsAt_sublist d
  have hfilter := filter_mem_of_sublist hsublist (Concrete.nodup_cursors t)
  rw [← hfilter, List.find?_filter, List.find?_eq_some_iff_append]
  simp only [mem_leafTargets, isBadTarget_iff, decide_eq_true_eq, Bool.not_eq_true',
    decide_eq_false_iff_not, not_and, not_not]
  constructor
  · rintro ⟨⟨htarget, hbad⟩, hfirst⟩
    exact ⟨htarget, hbad, hfirst⟩
  · rintro ⟨htarget, hbad, hfirst⟩
    exact ⟨⟨htarget, hbad⟩, hfirst⟩

/-! ### The check -/

theorem check_delete {text : List Char} {c : Cursor} (h : c.focus.kind = "delete_statement") :
    check text c = checkDeleteTargets c.focus := by
  simp [check, h]

theorem message_deletes (n : Concrete) :
    (if n.kind = "call" then Problem.deletesCall else .deletesExpression).message =
        "cannot delete function call" ↔ n.kind = "call" := by
  split
  · rename_i hcall
    exact iff_of_true rfl hcall
  · rename_i hother
    exact iff_of_false (by decide) hother

/-- A deletion is accepted exactly if all its targets can be deleted. Otherwise the first target in
pre-order that cannot be deleted is reported, and in words of their own if it is a call. -/
theorem delete_targets (statement : Concrete) :
    (∀ text path, statement.kind = "delete_statement" →
      check text ⟨statement, path⟩ = checkDeleteTargets statement) ∧
    (checkDeleteTargets statement = none ↔
      ∀ c, LeafTarget (ofRoot statement) c → c.focus.kind ∈ deletableKinds) ∧
    (∀ p problem, checkDeleteTargets statement = some (p, problem) ↔
      ∃ c, FirstBadTarget statement c ∧ p = c.focus.start ∧
        problem = (if c.focus.kind = "call" then .deletesCall else .deletesExpression) ∧
        (problem.message = "cannot delete function call" ↔ c.focus.kind = "call")) := by
  refine ⟨fun text path hkind => check_delete hkind, ?_, ?_⟩
  · rw [checkDeleteTargets_eq, Option.map_eq_none_iff, List.find?_eq_none]
    simp only [mem_leafTargets, isBadTarget_iff, not_not]
  · intro p problem
    rw [checkDeleteTargets_eq, Option.map_eq_some_iff]
    simp only [find?_leafTargets]
    constructor
    · rintro ⟨c, hfirst, heq⟩
      obtain ⟨rfl, rfl⟩ := Prod.mk.inj heq
      exact ⟨c, hfirst, rfl, rfl, message_deletes c.focus⟩
    · rintro ⟨c, hfirst, rfl, rfl, -⟩
      exact ⟨c, hfirst, rfl⟩

/-- The statement `del a, (b, [f(), c]), 1`. -/
def nestedTargets : Concrete :=
  soundNode "delete_statement" true none ⟨0, 0, 0⟩ ⟨0, 23, 23⟩ [
    soundNode "del" false none ⟨0, 0, 0⟩ ⟨0, 3, 3⟩ [],
    soundNode "expression_list" true none ⟨0, 4, 4⟩ ⟨0, 23, 23⟩ [
      soundNode "identifier" true none ⟨0, 4, 4⟩ ⟨0, 5, 5⟩ [],
      soundNode "," false none ⟨0, 5, 5⟩ ⟨0, 6, 6⟩ [],
      soundNode "tuple" true none ⟨0, 7, 7⟩ ⟨0, 20, 20⟩ [
        soundNode "(" false none ⟨0, 7, 7⟩ ⟨0, 8, 8⟩ [],
        soundNode "identifier" true none ⟨0, 8, 8⟩ ⟨0, 9, 9⟩ [],
        soundNode "," false none ⟨0, 9, 9⟩ ⟨0, 10, 10⟩ [],
        soundNode "list" true none ⟨0, 11, 11⟩ ⟨0, 19, 19⟩ [
          soundNode "[" false none ⟨0, 11, 11⟩ ⟨0, 12, 12⟩ [],
          soundNode "call" true none ⟨0, 12, 12⟩ ⟨0, 15, 15⟩ [
            soundNode "identifier" true (some "function") ⟨0, 12, 12⟩ ⟨0, 13, 13⟩ [],
            soundNode "argument_list" true (some "arguments") ⟨0, 13, 13⟩ ⟨0, 15, 15⟩ [
              soundNode "(" false none ⟨0, 13, 13⟩ ⟨0, 14, 14⟩ [],
              soundNode ")" false none ⟨0, 14, 14⟩ ⟨0, 15, 15⟩ []]],
          soundNode "," false none ⟨0, 15, 15⟩ ⟨0, 16, 16⟩ [],
          soundNode "identifier" true none ⟨0, 17, 17⟩ ⟨0, 18, 18⟩ [],
          soundNode "]" false none ⟨0, 18, 18⟩ ⟨0, 19, 19⟩ []],
        soundNode ")" false none ⟨0, 19, 19⟩ ⟨0, 20, 20⟩ []],
      soundNode "," false none ⟨0, 20, 20⟩ ⟨0, 21, 21⟩ [],
      soundNode "integer" true none ⟨0, 22, 22⟩ ⟨0, 23, 23⟩ []]]

/-- The call two groups down is reported, wherever the statement stands: it comes before the number,
and the names before it can be deleted. -/
theorem nestedTargets_reported :
    nestedTargets.kind = "delete_statement" ∧
    (∀ text path, check text ⟨nestedTargets, path⟩ = some (⟨0, 12, 12⟩, .deletesCall)) ∧
    ∃ c, FirstBadTarget nestedTargets c ∧ c.focus.kind = "call" := by
  obtain ⟨hcheck, -, hreport⟩ := delete_targets nestedTargets
  have hfound : checkDeleteTargets nestedTargets = some (⟨0, 12, 12⟩, .deletesCall) := by
    decide +kernel
  obtain ⟨c, hfirst, -, -, hcall⟩ := (hreport _ _).mp hfound
  exact ⟨rfl, fun text path => (hcheck text path rfl).trans hfound, c, hfirst, hcall.mp rfl⟩

end SourceAudit.Syntax
