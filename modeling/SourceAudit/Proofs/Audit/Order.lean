import Mathlib.Data.List.Basic
import SourceAudit.Proofs.Audit.Findings
import SourceAudit.Proofs.Syntax.DocumentOrder
import SourceAudit.Proofs.Syntax.Lowering

/-!
The order of findings. If the nodes of a concrete syntax tree start one after the other in
pre-order, so do the nodes of the syntax tree along its walk (`locations_lower_ordered`): lowering
drops nodes and flattens literals, but never lets a node overtake another one. Every detector
reports at places of the walk, in the order of the walk (`located_sublist`), so its findings come in
the order of the source (`findings_in_reading_order`).
-/

namespace SourceAudit.Audit

open SourceAudit.Concrete (Cursor cursors)
open SourceAudit.Concrete.Cursor (ofRoot)
open SourceAudit.Parsing (Point)
open SourceAudit.Syntax (Node NoLater kept kept_sublist map_shown_walk soundNode)
open SourceAudit.Syntax.Node (map_snd_places maxLine_spec mem_left_of_place_lt mem_places mem_walk
  places_increasing rel_of_place_lt walk_eq)

/-! ### Order of places -/

/-- Lines first, then columns. -/
def Location.NoLater (a b : Location) : Prop :=
  a.line < b.line ∨ a.line = b.line ∧ a.column ≤ b.column

instance (a b : Location) : Decidable (Location.NoLater a b) :=
  inferInstanceAs (Decidable (a.line < b.line ∨ a.line = b.line ∧ a.column ≤ b.column))

theorem Location.NoLater.line_le {a b : Location} (h : Location.NoLater a b) :
    a.line ≤ b.line := by
  unfold Location.NoLater at h
  omega

/-- The place in the report for a place in the text. -/
def reportedAt (p : Point) : Location := ⟨p.row + 1, p.column + 1⟩

theorem reportedAt_noLater {p q : Point} (h : NoLater p q) :
    Location.NoLater (reportedAt p) (reportedAt q) := by
  unfold NoLater at h
  unfold Location.NoLater
  simp only [reportedAt]
  omega

/-- The nodes of the tree start one after the other, in pre-order. -/
def StartsInOrder (t : Concrete) : Prop := t.preorder.Pairwise fun a b => NoLater a.start b.start

instance (t : Concrete) : Decidable (StartsInOrder t) :=
  inferInstanceAs (Decidable (t.preorder.Pairwise fun a b => NoLater a.start b.start))

/-- The places where the nodes of a tree start, in the order of the walk. -/
def locations (tree : Node) : List Location := tree.walk.map locationOf

/-! ### The walk over the lowered tree -/

theorem locations_lower (text : List Char) (t : Concrete) :
    locations (Syntax.lower text t) = (kept (ofRoot t)).map fun c => reportedAt c.focus.start := by
  have hshown := congrArg (List.map fun s => Location.mk s.2.1 s.2.2)
    (map_shown_walk text (ofRoot t))
  rw [List.map_map, List.map_map] at hshown
  exact hshown

theorem locations_lower_ordered (text : List Char) {t : Concrete} (h : StartsInOrder t) :
    (locations (Syntax.lower text t)).Pairwise Location.NoLater := by
  have hcursors : (cursors t).Pairwise fun c d => NoLater c.focus.start d.focus.start := by
    rw [StartsInOrder, ← Concrete.map_focus_cursors, List.pairwise_map] at h
    exact h
  -- literals are flattened, but the kept nodes still come in the order of the concrete tree
  have hkept := hcursors.sublist (kept_sublist (ofRoot t))
  rw [locations_lower, List.pairwise_map]
  exact hkept.imp reportedAt_noLater

/-! ### Last lines -/

theorem walk_sublist_of_at? {n m : Node} {p : List Nat} (h : n.at? p = some m) :
    m.walk.Sublist n.walk := by
  induction p generalizing n with
  | nil =>
    cases h
    exact List.Sublist.refl _
  | cons i p ih =>
    obtain ⟨c, hc, hm⟩ := Option.bind_eq_some_iff.mp h
    have hchild : c.walk.Sublist (n.children.flatMap Node.walk) :=
      (List.infix_flatMap_of_mem (List.mem_of_getElem? hc) _).sublist
    rw [walk_eq n]
    exact ((ih hm).trans hchild).cons n

/-- In a tree whose walk is in order, the last node of the walk is on the last line. -/
theorem line_getLast_walk {n : Node} (h : (locations n).Pairwise Location.NoLater) :
    n.walk.getLast?.map Node.line = some n.maxLine := by
  obtain ⟨p, m, hm, hline, hbound⟩ := maxLine_spec n
  have hmem : m ∈ n.walk := mem_walk.mpr ⟨p, hm⟩
  obtain ⟨last, hlast⟩ : ∃ last, n.walk.getLast? = some last :=
    ⟨_, List.getLast?_eq_some_getLast (List.ne_nil_of_mem hmem)⟩
  have hle : last.line ≤ m.line := by
    obtain ⟨q, hq⟩ := mem_walk.mp (List.mem_of_getLast? hlast)
    exact hbound q last hq
  have hge : m.line ≤ last.line := by
    obtain ⟨before, hsplit⟩ := List.getLast?_eq_some_iff.mp hlast
    rw [locations, List.pairwise_map, hsplit, List.pairwise_append] at h
    rw [hsplit, List.mem_append, List.mem_singleton] at hmem
    rcases hmem with hbefore | rfl
    · exact (h.2.2 m hbefore last (by simp)).line_le
    · exact Nat.le_refl _
  rw [hlast, ← hline, Option.map_some]
  congr 1
  omega

/-! ### Findings along the walk -/

/-- A detector that looks at one node after the other and reports at the node. -/
theorem located_filterMap_sublist {f : Node → Option Issue}
    (hf : ∀ n i, f n = some i → i.location = some (locationOf n)) (ns : List Node) :
    ((ns.filterMap f).filterMap Issue.location).Sublist (ns.map locationOf) := by
  induction ns with
  | nil => exact List.Sublist.slnil
  | cons n ns ih =>
    rw [List.filterMap_cons, List.map_cons]
    cases hn : f n with
    | none => exact ih.cons _
    | some i =>
      simp only [List.filterMap_cons, hf n i hn]
      exact ih.cons_cons _

theorem location_definitionDocIssue? {n : Node} {i : Issue} (h : definitionDocIssue? n = some i) :
    i.location = some (locationOf n) := by
  rcases definitionDocIssue?_eq_some.mp h with h | h <;> rfl

theorem location_longFunctionIssue? {threshold : Nat} {f : Node} {i : Issue}
    (h : longFunctionIssue? threshold f = some i) : i.location = some (locationOf f) := by
  unfold longFunctionIssue? at h
  simp only at h
  split at h
  · cases h
  · cases h
    rfl

theorem location_emptyHandlerIssue? {n : Node} {i : Issue} (h : emptyHandlerIssue? n = some i) :
    i.location = some (locationOf n) := by
  obtain ⟨_⟩ := emptyHandlerIssue?_eq_some.mp h
  rfl

theorem located_moduleDocIssues (tree : Node) :
    (moduleDocIssues tree).filterMap Issue.location = [] := by
  unfold moduleDocIssues
  split <;> rfl

theorem located_markerIssues (text : List Char) :
    (markerIssues text).filterMap Issue.location = [] := by
  unfold markerIssues
  split <;> rfl

theorem located_duplicateImportIssues_sublist (tree : Node) :
    ((duplicateImportIssues tree).filterMap Issue.location).Sublist (locations tree) := by
  rcases aboutImports_duplicateImportIssues tree with ⟨hnone, -⟩ | ⟨p, n, name, ⟨hn, -⟩, -, hone⟩
  · rw [hnone]
    exact List.nil_sublist _
  · rw [hone]
    exact List.singleton_sublist.mpr (List.mem_map.mpr ⟨n, mem_walk.mpr ⟨p, hn⟩, rfl⟩)

/-- Every detector reports at places of the walk and in its order. -/
theorem located_sublist {threshold : Nat} {d : Detector} (hd : d ∈ detectors threshold)
    (tree : Node) (text : List Char) :
    ((d.detect tree text).filterMap Issue.location).Sublist (locations tree) := by
  simp only [detectors, List.mem_cons, List.not_mem_nil, or_false] at hd
  rcases hd with rfl | rfl | rfl | rfl | rfl | rfl
  · exact located_moduleDocIssues tree ▸ List.nil_sublist _
  · exact located_filterMap_sublist (fun n i => location_definitionDocIssue?) _
  · have hfunctions := located_filterMap_sublist (f := longFunctionIssue? threshold)
      (fun n i => location_longFunctionIssue?) tree.functions
    exact hfunctions.trans (List.filter_sublist.map locationOf)
  · exact located_markerIssues text ▸ List.nil_sublist _
  · exact located_duplicateImportIssues_sublist tree
  · exact located_filterMap_sublist (fun n i => location_emptyHandlerIssue?) _

/-! ### The first import of a module -/

/-- The first import statement of the tree, in pre-order, that names the module first. -/
structure FirstImport (tree : Node) (name : String) (p : List Nat) (n : Node) : Prop where
  place : tree.at? p = some n
  imports : ImportsFirst n name
  first : ∀ q m, tree.at? q = some m → ImportsFirst m name → ¬ q < p

/-- In front of an import that repeats another one stands the first import of the module. -/
theorem RepeatsImport.firstImport {tree n : Node} {p : List Nat} {name : String}
    (h : RepeatsImport tree p n name) : ∃ q m, FirstImport tree name q m ∧ q < p := by
  obtain ⟨hn, hname, r, d, hrp, hd, hother⟩ := h
  have hplaces := places_increasing tree
  -- there are places below any place, so the first one is taken from the list of all places
  have hsome : (tree.places.find? fun e => firstImport? e.2 = some name).isSome = true :=
    List.find?_isSome.mpr ⟨(r, d), mem_places.mpr hd, by simp [firstImport?_eq_some.mpr hother]⟩
  obtain ⟨⟨q, m⟩, hfind⟩ := Option.isSome_iff_exists.mp hsome
  obtain ⟨hm, before, after, hsplit, hbefore⟩ := List.find?_eq_some_iff_append.mp hfind
  rw [hsplit] at hplaces
  have hfirst (s : List Nat) (e : Node) (he : tree.at? s = some e)
      (himports : ImportsFirst e name) : ¬ s < q := by
    intro hlt
    have hmem := mem_left_of_place_lt hplaces (hsplit ▸ mem_places.mpr he) hlt
    simpa [firstImport?_eq_some.mpr himports] using hbefore (s, e) hmem
  refine ⟨q, m, ⟨mem_places.mp (by simp [hsplit]), ?_, hfirst⟩, ?_⟩
  · exact firstImport?_eq_some.mp (by simpa using hm)
  · exact List.lt_of_le_of_lt (hfirst r d hd hother) hrp

theorem noLater_of_place_lt {tree n m : Node} {p q : List Nat}
    (h : (locations tree).Pairwise Location.NoLater) (hn : tree.at? p = some n)
    (hm : tree.at? q = some m) (hpq : p < q) :
    Location.NoLater (locationOf n) (locationOf m) := by
  rw [locations, ← map_snd_places, List.map_map, List.pairwise_map] at h
  exact rel_of_place_lt (places_increasing tree) h (mem_places.mpr hn) (mem_places.mpr hm) hpq

/-- A repeated import is reported no earlier than the first import of the module. -/
theorem duplicateImport_noEarlier {tree : Node} (h : (locations tree).Pairwise Location.NoLater)
    {i : Issue} (hi : i ∈ duplicateImportIssues tree) : ∃ name location q first,
      i.name = some name ∧ i.location = some location ∧ FirstImport tree name q first ∧
        Location.NoLater ⟨first.line, first.column⟩ location := by
  rcases aboutImports_duplicateImportIssues tree with ⟨hnone, -⟩ | ⟨p, n, name, hrepeats, -, hone⟩
  · rw [hnone] at hi
    cases hi
  · rw [hone, List.mem_singleton] at hi
    subst hi
    obtain ⟨q, m, hfirst, hqp⟩ := hrepeats.firstImport
    exact ⟨name, _, q, m, rfl, rfl, hfirst, noLater_of_place_lt h hfirst.place hrepeats.1 hqp⟩

/-! ### Reading order -/

/-- The walk over a tree, and what is reported about the tree, follow the lines of the source. -/
structure InReadingOrder (tree : Node) : Prop where
  walk : (locations tree).Pairwise Location.NoLater
  findings : ∀ threshold text, ∀ d ∈ detectors threshold,
    ((d.detect tree text).filterMap Issue.location).Pairwise Location.NoLater
  lastLine : ∀ p n, tree.at? p = some n → n.walk.getLast?.map Node.line = some n.maxLine
  imports : ∀ i ∈ duplicateImportIssues tree, ∃ name location q first,
    i.name = some name ∧ i.location = some location ∧ FirstImport tree name q first ∧
      Location.NoLater ⟨first.line, first.column⟩ location

/-- If the nodes of a concrete syntax tree start in pre-order, the walk over the syntax tree follows
the lines of the source, and so do the findings of each detector; the last line of a node is that of
the last node in it; and a repeated import is not reported above the first import of the module. -/
theorem findings_in_reading_order (text : List Char) (t : Concrete) (h : StartsInOrder t) :
    InReadingOrder (Syntax.lower text t) := by
  have hwalk := locations_lower_ordered text h
  constructor
  case walk => exact hwalk
  case findings =>
    intro threshold source d hd
    exact hwalk.sublist (located_sublist hd (Syntax.lower text t) source)
  case lastLine =>
    intro p n hn
    exact line_getLast_walk (hwalk.sublist ((walk_sublist_of_at? hn).map locationOf))
  case imports =>
    intro i hi
    exact duplicateImport_noEarlier hwalk hi

def repeatedText : List Char := "import os\nx = \"a\" f\"\x7by\x7d\"\nimport os\n".toList

def importTree (start name stop : Point) : Concrete :=
  soundNode "import_statement" true none start stop [
    soundNode "import" false none start ⟨start.row, start.column + 6, start.byte + 6⟩ [],
    soundNode "dotted_name" true (some "name") name stop [
      soundNode "identifier" true none name stop []]]

/-- The tree of `repeatedText`: two imports of a module, and between them a literal whose second
part holds an interpolation. -/
def repeatedTree : Concrete :=
  soundNode "module" true none ⟨0, 0, 0⟩ ⟨3, 0, 35⟩ [
    importTree ⟨0, 0, 0⟩ ⟨0, 7, 7⟩ ⟨0, 9, 9⟩,
    soundNode "expression_statement" true none ⟨1, 0, 10⟩ ⟨1, 14, 24⟩ [
      soundNode "assignment" true none ⟨1, 0, 10⟩ ⟨1, 14, 24⟩ [
        soundNode "identifier" true (some "left") ⟨1, 0, 10⟩ ⟨1, 1, 11⟩ [],
        soundNode "=" false none ⟨1, 2, 12⟩ ⟨1, 3, 13⟩ [],
        soundNode "concatenated_string" true (some "right") ⟨1, 4, 14⟩ ⟨1, 14, 24⟩ [
          soundNode "string" true none ⟨1, 4, 14⟩ ⟨1, 7, 17⟩ [
            soundNode "string_start" true none ⟨1, 4, 14⟩ ⟨1, 5, 15⟩ [],
            soundNode "string_content" true none ⟨1, 5, 15⟩ ⟨1, 6, 16⟩ [],
            soundNode "string_end" true none ⟨1, 6, 16⟩ ⟨1, 7, 17⟩ []],
          soundNode "string" true none ⟨1, 8, 18⟩ ⟨1, 14, 24⟩ [
            soundNode "string_start" true none ⟨1, 8, 18⟩ ⟨1, 10, 20⟩ [],
            soundNode "interpolation" true none ⟨1, 10, 20⟩ ⟨1, 13, 23⟩ [
              soundNode "\x7b" false none ⟨1, 10, 20⟩ ⟨1, 11, 21⟩ [],
              soundNode "identifier" true (some "expression") ⟨1, 11, 21⟩ ⟨1, 12, 22⟩ [],
              soundNode "\x7d" false none ⟨1, 12, 22⟩ ⟨1, 13, 23⟩ []],
            soundNode "string_end" true none ⟨1, 13, 23⟩ ⟨1, 14, 24⟩ []]]]],
    importTree ⟨2, 0, 25⟩ ⟨2, 7, 32⟩ ⟨2, 9, 34⟩]

/-- The interpolation is pulled up through two literals and stays between the imports, of which the
second one is reported. -/
theorem repeatedTree_in_reading_order :
    StartsInOrder repeatedTree ∧
    (duplicateImportIssues (Syntax.lower repeatedText repeatedTree)).filterMap Issue.location =
      [⟨3, 1⟩] ∧
    InReadingOrder (Syntax.lower repeatedText repeatedTree) := by
  have horder : StartsInOrder repeatedTree := by decide +kernel
  exact ⟨horder, by decide +kernel, findings_in_reading_order repeatedText repeatedTree horder⟩

end SourceAudit.Audit
