import Mathlib.Data.List.Forall2
import Mathlib.Data.List.Nodup
import SourceAudit.Audit.Detector
import SourceAudit.Proofs.Syntax.Place

/-!
What the detectors find. The findings about nodes stand in one-to-one correspondence with the places
of the nodes that they are about, in pre-order (`OnePerNode`); the findings of a run are those of
the six detectors, one detector after the other, and no others (`detectAll_findings`).
-/

namespace SourceAudit.Audit

open SourceAudit.Syntax (Node)
open SourceAudit.Syntax.Node (map_snd_places maxLine_spec mem_left_of_place_lt mem_places
  places_increasing rel_of_place_lt)

/-! ### What a finding is about -/

/-- The finding about a function or class without a docstring. -/
inductive Undocumented (n : Node) : Issue → Prop
  | function {name : String} {isAsync : Bool} (h : n.kind = .function name isAsync none) :
      Undocumented n
        { kind := .missingFunctionDoc, message := "Missing docstring in function '" ++ name ++ "'"
          location := some ⟨n.line, n.column⟩, name := some name }
  | class {name : String} (h : n.kind = .class name none) :
      Undocumented n
        { kind := .missingClassDoc, message := "Missing docstring in class '" ++ name ++ "'"
          location := some ⟨n.line, n.column⟩, name := some name }

/-- The finding about a function whose last node starts more than `threshold` lines below it. -/
inductive TooLong (threshold : Nat) (f : Node) : Issue → Prop
  | intro {name : String} {isAsync : Bool} {docstring : Option String} {p : List Nat} {last : Node}
      (h : f.kind = .function name isAsync docstring) (hlast : f.at? p = some last)
      (hmax : ∀ q n, f.at? q = some n → n.line ≤ last.line)
      (hlong : threshold < last.line - f.line) :
      TooLong threshold f
        { kind := .longFunction
          message := "Function '" ++ name ++ "' is too long (" ++ toString (last.line - f.line) ++
            " lines)"
          location := some ⟨f.line, f.column⟩, name := some name
          span := some ⟨f.line, last.line, last.line - f.line⟩ }

/-- The finding about a `try` statement without a handler. -/
inductive Unhandled (n : Node) : Issue → Prop
  | intro (h : n.kind = .try 0) :
      Unhandled n
        { kind := .emptyExceptHandler, message := "Try block without any except handler"
          location := some ⟨n.line, n.column⟩ }

/-- The findings are about the nodes of a tree that have one, each node once, by place and not by
looks: the places are in pre-order, so none comes twice, and the findings follow them one by one. -/
def OnePerNode (tree : Node) (About : Node → Issue → Prop) (issues : List Issue) : Prop :=
  ∃ found : List (List Nat × Node),
    found.Pairwise (fun a b => a.1 < b.1) ∧
    (∀ p n, (p, n) ∈ found ↔ tree.at? p = some n ∧ ∃ i, About n i) ∧
    List.Forall₂ (fun q i => About q.2 i) found issues

/-- The letters `todo`, in any case, stand somewhere in the text. -/
def HoldsMarker (text : List Char) : Prop :=
  ∃ before marker after, text = before ++ marker ++ after ∧
    marker.map Char.toLower = ['t', 'o', 'd', 'o']

/-- The first module of an import statement. -/
def ImportsFirst (n : Node) (name : String) : Prop := ∃ names, n.kind = .imports (name :: names)

/-- An import statement that names the same module first as one before it. -/
def RepeatsImport (tree : Node) (p : List Nat) (n : Node) (name : String) : Prop :=
  tree.at? p = some n ∧ ImportsFirst n name ∧
    ∃ q m, q < p ∧ tree.at? q = some m ∧ ImportsFirst m name

/-- One finding about the first import statement that repeats another one, if there is one. -/
def AboutImports (tree : Node) (issues : List Issue) : Prop :=
  (issues = [] ∧ ∀ p n name, ¬ RepeatsImport tree p n name) ∨
  ∃ p n name, RepeatsImport tree p n name ∧
    (∀ q m other, RepeatsImport tree q m other → ¬ q < p) ∧
    issues =
      [{ kind := .duplicateImport, message := "Possible unused or duplicate imports"
         location := some ⟨n.line, n.column⟩, name := some name }]

/-! ### Findings about single nodes -/

theorem forall₂_filterMap (f : Node → Option Issue) (l : List (List Nat × Node)) :
    List.Forall₂ (fun q i => f q.2 = some i) (l.filter fun q => (f q.2).isSome)
      ((l.map Prod.snd).filterMap f) := by
  induction l with
  | nil => exact .nil
  | cons q l ih =>
    rw [List.map_cons, List.filterMap_cons, List.filter_cons]
    cases hf : f q.2 with
    | none => exact ih
    | some i => exact .cons hf ih

/-- A detector that looks at one node at a time and finds what `About` says. -/
theorem onePerNode_filterMap {f : Node → Option Issue} {About : Node → Issue → Prop} {tree : Node}
    (hf : ∀ n i, f n = some i ↔ About n i) : OnePerNode tree About (tree.walk.filterMap f) := by
  refine ⟨tree.places.filter fun q => (f q.2).isSome, (places_increasing tree).filter _, ?_, ?_⟩
  · intro p n
    simp only [List.mem_filter, mem_places, Option.isSome_iff_exists, hf]
  · rw [← map_snd_places]
    exact (forall₂_filterMap f tree.places).imp fun q i hq => (hf q.2 i).mp hq

theorem definitionDocIssue?_eq_some {n : Node} {i : Issue} :
    definitionDocIssue? n = some i ↔ Undocumented n i := by
  constructor
  · intro h
    unfold definitionDocIssue? at h
    split at h
    · rename_i hkind
      cases h
      exact .function hkind
    · rename_i hkind
      cases h
      exact .class hkind
    · cases h
  · rintro (hkind | hkind)
    · simp only [definitionDocIssue?, hkind, locationOf]
    · simp only [definitionDocIssue?, hkind, locationOf]

theorem emptyHandlerIssue?_eq_some {n : Node} {i : Issue} :
    emptyHandlerIssue? n = some i ↔ Unhandled n i := by
  constructor
  · intro h
    unfold emptyHandlerIssue? at h
    split at h
    · rename_i hkind
      cases h
      exact ⟨hkind⟩
    · cases h
  · rintro ⟨hkind⟩
    simp only [emptyHandlerIssue?, hkind, locationOf]

theorem maxLine_eq {f last : Node} {p : List Nat} (hlast : f.at? p = some last)
    (hmax : ∀ q n, f.at? q = some n → n.line ≤ last.line) : f.maxLine = last.line := by
  obtain ⟨q, m, hm, hline, hbound⟩ := maxLine_spec f
  have hle := hmax q m hm
  have hge := hbound p last hlast
  omega

theorem longFunctionIssue?_eq_some {threshold : Nat} {f : Node} {i : Issue} :
    (if f.isFunction then longFunctionIssue? threshold f else none) = some i ↔
      TooLong threshold f i := by
  constructor
  · intro h
    unfold Node.isFunction at h
    split at h
    · rename_i name isAsync docstring hfunction
      obtain ⟨p, last, hlast, hline, hbound⟩ := maxLine_spec f
      rw [if_pos rfl, longFunctionIssue?, spanOf, ← hline] at h
      simp only [Node.name?, hfunction, Option.getD_some, locationOf] at h
      split at h
      · cases h
      · cases h
        exact ⟨hfunction, hlast, hbound, by omega⟩
    · cases h
  · rintro @⟨name, isAsync, docstring, p, last, hfunction, hlast, hmax, hlong⟩
    have hline := maxLine_eq hlast hmax
    have hshort : ¬ last.line - f.line ≤ threshold := by omega
    simp only [Node.isFunction, hfunction, longFunctionIssue?, spanOf, hline, Node.name?,
      Option.getD_some, locationOf, if_true, if_neg hshort]

/-! ### Work markers -/

theorem startsMarker_iff {text : List Char} :
    startsMarker text = true ↔
      ∃ marker after, text = marker ++ after ∧ marker.map Char.toLower = ['t', 'o', 'd', 'o'] := by
  constructor
  · intro h
    unfold startsMarker at h
    split at h
    · rename_i a b c d rest
      simp only [Bool.and_eq_true, decide_eq_true_eq] at h
      exact ⟨[a, b, c, d], rest, rfl, by simp [h]⟩
    · cases h
  · rintro ⟨marker, after, rfl, hmarker⟩
    have hlength : marker.length = 4 := by simpa using congrArg List.length hmarker
    obtain ⟨a, b, c, d, rfl⟩ := List.length_eq_four.mp hlength
    simp only [List.map_cons, List.map_nil, List.cons.injEq, and_true] at hmarker
    simp [startsMarker, hmarker]

theorem holdsMarker_cons {c : Char} {cs : List Char} :
    HoldsMarker (c :: cs) ↔ startsMarker (c :: cs) = true ∨ HoldsMarker cs := by
  rw [startsMarker_iff]
  constructor
  · rintro ⟨before, marker, after, htext, hmarker⟩
    cases before with
    | nil => exact .inl ⟨marker, after, htext, hmarker⟩
    | cons b before =>
      obtain ⟨rfl, rfl⟩ := List.cons_eq_cons.mp htext
      exact .inr ⟨before, marker, after, rfl, hmarker⟩
  · rintro (⟨marker, after, htext, hmarker⟩ | ⟨before, marker, after, rfl, hmarker⟩)
    · exact ⟨[], marker, after, htext, hmarker⟩
    · exact ⟨c :: before, marker, after, rfl, hmarker⟩

theorem not_holdsMarker_nil : ¬ HoldsMarker [] := by
  rintro ⟨before, marker, after, htext, hmarker⟩
  obtain ⟨-, rfl, -⟩ : before = [] ∧ marker = [] ∧ after = [] := by simpa using htext
  cases hmarker

theorem countMarkers_eq_zero {text : List Char} : countMarkers text = 0 ↔ ¬ HoldsMarker text := by
  unfold countMarkers
  induction text with
  | nil => simp [countMarkersFrom, not_holdsMarker_nil]
  | cons c cs ih =>
    rw [holdsMarker_cons, countMarkersFrom]
    split
    · rename_i hstart
      simp [hstart]
    · rename_i hstart
      simp [hstart, ih]

/-! ### Imports -/

theorem firstImport?_eq_some {n : Node} {name : String} :
    firstImport? n = some name ↔ ImportsFirst n name := by
  unfold firstImport? ImportsFirst
  split
  · rename_i names hkind
    rw [hkind]
    cases names with
    | nil => simp
    | cons first names => simp [eq_comm]
  · rename_i hkind
    constructor
    · intro h
      cases h
    · rintro ⟨names, h⟩
      exact absurd h (hkind _)

/-- The names seen so far stay without repetition until a repeat is found. -/
theorem firstRepeat?_eq_none {seen : List String} {ns : List Node} (hseen : seen.Nodup)
    (h : firstRepeat? seen ns = none) : ((ns.filterMap firstImport?).reverse ++ seen).Nodup := by
  induction ns generalizing seen with
  | nil => simpa using hseen
  | cons n ns ih =>
    rw [firstRepeat?] at h
    cases hfirst : firstImport? n with
    | none =>
      rw [hfirst] at h
      simpa only [List.filterMap_cons, hfirst] using ih hseen h
    | some name =>
      simp only [hfirst] at h
      split at h
      · cases h
      · rename_i hnew
        have hcons : (name :: seen).Nodup :=
          List.nodup_cons.mpr ⟨fun hmem => hnew (List.contains_iff_mem.mpr hmem), hseen⟩
        simpa [List.filterMap_cons, hfirst] using ih hcons h

theorem firstRepeat?_eq_some {seen : List String} {ns : List Node} {name : String} {n : Node}
    (hseen : seen.Nodup) (h : firstRepeat? seen ns = some (name, n)) :
    ∃ before after, ns = before ++ n :: after ∧ firstImport? n = some name ∧
      name ∈ (before.filterMap firstImport?).reverse ++ seen ∧
      ((before.filterMap firstImport?).reverse ++ seen).Nodup := by
  induction ns generalizing seen with
  | nil => cases h
  | cons m ns ih =>
    rw [firstRepeat?] at h
    cases hfirst : firstImport? m with
    | none =>
      rw [hfirst] at h
      obtain ⟨before, after, rfl, hn, hmem, hnodup⟩ := ih hseen h
      refine ⟨m :: before, after, rfl, hn, ?_, ?_⟩
      · simpa only [List.filterMap_cons, hfirst] using hmem
      · simpa only [List.filterMap_cons, hfirst] using hnodup
    | some other =>
      simp only [hfirst] at h
      split at h
      · rename_i hold
        cases h
        exact ⟨[], ns, rfl, hfirst, by simpa using hold, by simpa using hseen⟩
      · rename_i hnew
        have hcons : (other :: seen).Nodup :=
          List.nodup_cons.mpr ⟨fun hmem => hnew (List.contains_iff_mem.mpr hmem), hseen⟩
        obtain ⟨before, after, rfl, hn, hmem, hnodup⟩ := ih hcons h
        refine ⟨m :: before, after, rfl, hn, ?_, ?_⟩
        · simpa [List.filterMap_cons, hfirst] using hmem
        · simpa [List.filterMap_cons, hfirst] using hnodup

/-- No import repeats another one among places whose first imports are all different. -/
theorem ne_of_nodup_imports {l : List (List Nat × Node)}
    (hplaces : l.Pairwise fun a b => a.1 < b.1)
    (hnodup : ((l.map Prod.snd).filterMap firstImport?).Nodup) {a b : List Nat × Node} (ha : a ∈ l)
    (hb : b ∈ l) (hab : a.1 < b.1) {name : String} (hfirst : ImportsFirst a.2 name) :
    ¬ ImportsFirst b.2 name := by
  rw [List.Nodup, List.pairwise_filterMap, List.pairwise_map] at hnodup
  intro hsecond
  exact rel_of_place_lt hplaces hnodup ha hb hab name (firstImport?_eq_some.mpr hfirst) name
    (firstImport?_eq_some.mpr hsecond) rfl

theorem aboutImports_duplicateImportIssues (tree : Node) :
    AboutImports tree (duplicateImportIssues tree) := by
  have hplaces := places_increasing tree
  unfold duplicateImportIssues
  rw [← map_snd_places]
  cases hrepeat : firstRepeat? [] (tree.places.map Prod.snd) with
  | none =>
    refine .inl ⟨rfl, ?_⟩
    rintro p n name ⟨hn, hfirst, q, m, hqp, hm, hother⟩
    have hnodup := firstRepeat?_eq_none List.nodup_nil hrepeat
    rw [List.append_nil, List.nodup_reverse] at hnodup
    exact ne_of_nodup_imports hplaces hnodup (mem_places.mpr hm) (mem_places.mpr hn) hqp hother
      hfirst
  | some found =>
    obtain ⟨name, n⟩ := found
    obtain ⟨before, after, hsplit, hfirst, hmem, hnodup⟩ :=
      firstRepeat?_eq_some List.nodup_nil hrepeat
    rw [List.append_nil, List.nodup_reverse] at hnodup
    rw [List.append_nil, List.mem_reverse, List.mem_filterMap] at hmem
    obtain ⟨earlier, rest, hlist, rfl, hrest⟩ := List.map_eq_append_iff.mp hsplit
    obtain ⟨⟨p, d⟩, later, rfl, rfl, -⟩ := List.map_eq_cons_iff.mp hrest
    have hat (e : List Nat × Node) (he : e ∈ earlier ++ (p, d) :: later) :
        tree.at? e.1 = some e.2 := mem_places.mp (hlist ▸ he)
    rw [hlist] at hplaces
    have hbefore (e : List Nat × Node) (he : tree.at? e.1 = some e.2) (hlt : e.1 < p) :
        e ∈ earlier := mem_left_of_place_lt hplaces (hlist ▸ mem_places.mpr he) hlt
    obtain ⟨hearlier, -, hcross⟩ := List.pairwise_append.mp hplaces
    obtain ⟨m, hm, hother⟩ := hmem
    obtain ⟨⟨q, m⟩, hq, rfl⟩ := List.mem_map.mp hm
    refine .inr ⟨p, d, name, ⟨hat (p, d) (by simp), firstImport?_eq_some.mp hfirst, q, m, ?_,
      hat (q, m) (by simp [hq]), firstImport?_eq_some.mp hother⟩, ?_, rfl⟩
    · exact hcross (q, m) hq (p, d) (by simp)
    · -- a repeat at an earlier place would have its first import before it, among distinct names
      rintro r e other ⟨he, hsecond, s, c, hsr, hc, hone⟩ hrp
      exact ne_of_nodup_imports hearlier hnodup (hbefore (s, c) hc (List.lt_trans hsr hrp))
        (hbefore (r, e) he hrp) hsr hone hsecond

/-! ### All together -/

/-- The findings of a run, one detector after the other: one about a module without a docstring; one
about each function and each class without a docstring, wherever it stands; one about each function
that is too long; one about all work markers, if the text holds one; one about the first repeated
import; and one about each `try` statement without a handler. There are no others. -/
theorem detectAll_findings (threshold : Nat) (tree : Node) (text : List Char) :
    ∃ moduleDoc definitions long markers imports handlers : List Issue,
      detectAll threshold tree text =
        moduleDoc ++ definitions ++ long ++ markers ++ imports ++ handlers ∧
      (tree.docstring? ≠ none → moduleDoc = []) ∧
      (tree.docstring? = none → moduleDoc =
        [{ kind := .missingModuleDoc, message := "Module is missing a top-level docstring" }]) ∧
      OnePerNode tree Undocumented definitions ∧
      OnePerNode tree (TooLong threshold) long ∧
      (¬ HoldsMarker text → markers = []) ∧
      (HoldsMarker text → ∃ n, n = countMarkers text ∧ 0 < n ∧ markers =
        [{ kind := .workMarker
           message := "Found " ++ toString n ++ " TODO marker" ++ (if n = 1 then "" else "s")
           count := some n }]) ∧
      AboutImports tree imports ∧
      OnePerNode tree Unhandled handlers := by
  refine ⟨moduleDocIssues tree, definitionDocIssues tree, longFunctionIssues threshold tree,
    markerIssues text, duplicateImportIssues tree, emptyHandlerIssues tree, ?_, ?_, ?_, ?_, ?_, ?_,
    ?_, aboutImports_duplicateImportIssues tree, ?_⟩
  · simp [detectAll, detectors]
  · intro h
    simp [moduleDocIssues, Option.isSome_iff_ne_none, h]
  · intro h
    simp [moduleDocIssues, h]
  · exact onePerNode_filterMap fun n i => definitionDocIssue?_eq_some
  · rw [longFunctionIssues, Node.functions, List.filterMap_filter]
    exact onePerNode_filterMap fun n i => longFunctionIssue?_eq_some
  · intro h
    simp only [markerIssues, countMarkers_eq_zero.mpr h]
  · intro h
    have hcount : countMarkers text ≠ 0 := fun hzero => countMarkers_eq_zero.mp hzero h
    obtain ⟨n, hn⟩ := Nat.exists_eq_succ_of_ne_zero hcount
    refine ⟨countMarkers text, rfl, by omega, ?_⟩
    simp only [markerIssues, hn]
  · exact onePerNode_filterMap fun n i => emptyHandlerIssue?_eq_some

end SourceAudit.Audit
