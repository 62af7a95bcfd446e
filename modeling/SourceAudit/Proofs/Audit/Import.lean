import Mathlib.Data.List.Nodup
import SourceAudit.Proofs.Audit.Findings

/-!
Repeated imports. An import statement counts by the module that it names first; `importSites` lists
these modules with their places, in pre-order and however deep the statements stand. The detector is
silent exactly if they are all different, and otherwise reports the first one that stood further up
(`duplicate_imports`). What it says depends on this list alone (`duplicateImportIssues_congr`).
-/

namespace SourceAudit.Audit

open SourceAudit.Syntax (Kind Node)
open SourceAudit.Syntax.Node (walk_eq)

/-! ### Import statements -/

/-- An import statement: the module that it names first, and its place. -/
structure ImportSite where
  name : String
  location : Location
  deriving DecidableEq

/-- What a node of the given kind adds to the import statements. -/
def ownSite (location : Location) : Kind → List ImportSite
  | .imports (name :: _) => [⟨name, location⟩]
  | _ => []

mutual

/-- The import statements of a tree that name a module, in pre-order. -/
def importSites : Node → List ImportSite
  | .mk k l c cs => ownSite ⟨l, c⟩ k ++ importSitesIn cs

def importSitesIn : List Node → List ImportSite
  | [] => []
  | n :: ns => importSites n ++ importSitesIn ns

end

/-- The modules that the import statements of a tree name first. -/
def importedFirst (tree : Node) : List String := (importSites tree).map ImportSite.name

/-- The import statement at a node, as the detector sees it. -/
def site? (n : Node) : Option ImportSite := (firstImport? n).map fun name => ⟨name, locationOf n⟩

theorem ownSite_eq (k : Kind) (l c : Nat) (cs : List Node) :
    ownSite ⟨l, c⟩ k = (site? (.mk k l c cs)).toList := by
  unfold ownSite
  split
  · rfl
  · rename_i hkind
    cases hfirst : firstImport? (.mk k l c cs) with
    | none => simp [site?, hfirst]
    | some name =>
      obtain ⟨names, hnames⟩ := firstImport?_eq_some.mp hfirst
      exact absurd hnames (hkind name names)

/-- The detector meets the import statements in pre-order. -/
theorem importSites_eq (tree : Node) : importSites tree = tree.walk.filterMap site? := by
  induction tree using Node.inductionOn with
  | mk k l c cs ih =>
    have hchildren : importSitesIn cs = (cs.flatMap Node.walk).filterMap site? := by
      induction cs with
      | nil => rfl
      | cons n ns ihns =>
        rw [importSitesIn, List.flatMap_cons, List.filterMap_append, ih n (by simp),
          ihns fun m hm => ih m (by simp [hm])]
    rw [importSites, walk_eq, ownSite_eq k l c cs, hchildren, List.filterMap_cons]
    cases site? (.mk k l c cs) <;> rfl

theorem map_name_filterMap_site? (ns : List Node) :
    (ns.filterMap site?).map ImportSite.name = ns.filterMap firstImport? := by
  rw [List.map_filterMap]
  congr 1
  funext n
  cases h : firstImport? n <;> simp [site?, h]

/-! ### Repeated names -/

/-- The name at index `j` also stands further to the left. -/
def RepeatsAt (names : List String) (j : Nat) : Prop :=
  ∃ name, names[j]? = some name ∧ name ∈ names.take j

/-- The name at index `j` stands there for the second time. -/
def SecondAt (names : List String) (j : Nat) : Prop :=
  ∃ name, names[j]? = some name ∧ (names.take j).count name = 1

theorem SecondAt.repeatsAt {names : List String} {j : Nat} (h : SecondAt names j) :
    RepeatsAt names j := by
  obtain ⟨name, hname, hcount⟩ := h
  exact ⟨name, hname, List.count_pos_iff.mp (by omega)⟩

theorem not_repeatsAt_of_nodup {names : List String} (h : names.Nodup) (j : Nat) :
    ¬ RepeatsAt names j := by
  rintro ⟨name, hname, hleft⟩
  have hright : name ∈ names.drop j :=
    List.mem_of_getElem? (i := 0) (by simpa [List.getElem?_drop] using hname)
  exact List.disjoint_take_drop h (Nat.le_refl j) hleft hright

/-- A repeat among the first names of a longer list is a repeat among these names. -/
theorem RepeatsAt.of_append {names more : List String} {j : Nat} (hj : j < names.length)
    (h : RepeatsAt (names ++ more) j) : RepeatsAt names j := by
  obtain ⟨name, hname, hleft⟩ := h
  rw [List.getElem?_append_left hj] at hname
  rw [List.take_append_of_le_length (Nat.le_of_lt hj)] at hleft
  exact ⟨name, hname, hleft⟩

/-- The import statement with the number `j` is the first one to repeat another one. -/
structure FirstRepeat (sites : List ImportSite) (j : Nat) (site : ImportSite) : Prop where
  listed : sites[j]? = some site
  repeats : RepeatsAt (sites.map ImportSite.name) j
  least : ∀ i, RepeatsAt (sites.map ImportSite.name) i → j ≤ i
  second : SecondAt (sites.map ImportSite.name) j
  others : ∀ k, SecondAt (sites.map ImportSite.name) k →
    (sites.map ImportSite.name)[k]? ≠ some site.name → j < k

theorem firstRepeat_append {before after : List ImportSite} {site : ImportSite}
    (hnodup : (before.map ImportSite.name).Nodup)
    (hmem : site.name ∈ before.map ImportSite.name) :
    FirstRepeat (before ++ site :: after) before.length site := by
  have hat : ((before ++ site :: after).map ImportSite.name)[before.length]? = some site.name := by
    simp
  have htake : ((before ++ site :: after).map ImportSite.name).take before.length =
      before.map ImportSite.name := by
    rw [List.map_append, ← List.length_map (f := ImportSite.name), List.take_left]
  have hsecond : SecondAt ((before ++ site :: after).map ImportSite.name) before.length :=
    ⟨site.name, hat, htake ▸ List.count_eq_one_of_mem hnodup hmem⟩
  -- a repeat further to the left would be one among different names
  have hleast (i : Nat) (hi : RepeatsAt ((before ++ site :: after).map ImportSite.name) i) :
      before.length ≤ i := by
    by_contra hlt
    rw [List.map_append] at hi
    exact not_repeatsAt_of_nodup hnodup i (hi.of_append (by simpa using hlt))
  refine ⟨by simp, hsecond.repeatsAt, hleast, hsecond, ?_⟩
  intro k hk hother
  have hle := hleast k hk.repeatsAt
  have hne : k ≠ before.length := by
    rintro rfl
    exact hother hat
  omega

theorem FirstRepeat.not_nodup {sites : List ImportSite} {j : Nat} {site : ImportSite}
    (h : FirstRepeat sites j site) : ¬ (sites.map ImportSite.name).Nodup :=
  fun hnodup => not_repeatsAt_of_nodup hnodup j h.repeats

theorem FirstRepeat.unique {sites : List ImportSite} {i j : Nat} {a b : ImportSite}
    (ha : FirstRepeat sites i a) (hb : FirstRepeat sites j b) : a = b := by
  have hij : i = j := Nat.le_antisymm (ha.least j hb.repeats) (hb.least i ha.repeats)
  subst hij
  exact Option.some.inj (ha.listed.symm.trans hb.listed)

/-! ### The finding -/

/-- The finding about an import statement that repeats another one. -/
def repeatFinding (site : ImportSite) : Issue :=
  { kind := .duplicateImport, message := "Possible unused or duplicate imports"
    location := some site.location, name := some site.name }

theorem duplicateImportIssues_cases (tree : Node) :
    (duplicateImportIssues tree = [] ∧ (importedFirst tree).Nodup) ∨
      ∃ j site, FirstRepeat (importSites tree) j site ∧
        duplicateImportIssues tree = [repeatFinding site] := by
  unfold duplicateImportIssues importedFirst
  rw [importSites_eq]
  cases hrepeat : firstRepeat? [] tree.walk with
  | none =>
    have hnodup := firstRepeat?_eq_none List.nodup_nil hrepeat
    rw [List.append_nil, List.nodup_reverse, ← map_name_filterMap_site?] at hnodup
    exact .inl ⟨rfl, hnodup⟩
  | some found =>
    obtain ⟨name, n⟩ := found
    obtain ⟨before, after, hsplit, hfirst, hmem, hnodup⟩ :=
      firstRepeat?_eq_some List.nodup_nil hrepeat
    rw [List.append_nil, List.nodup_reverse, ← map_name_filterMap_site?] at hnodup
    rw [List.append_nil, List.mem_reverse, ← map_name_filterMap_site?] at hmem
    have hsite : site? n = some ⟨name, locationOf n⟩ := by simp [site?, hfirst]
    refine .inr ⟨(before.filterMap site?).length, ⟨name, locationOf n⟩, ?_, rfl⟩
    rw [hsplit, List.filterMap_append, List.filterMap_cons, hsite]
    exact firstRepeat_append hnodup hmem

/-- The finding depends on the import statements alone. -/
theorem duplicateImportIssues_congr {tree other : Node} (h : importSites other = importSites tree) :
    duplicateImportIssues other = duplicateImportIssues tree := by
  have hother := duplicateImportIssues_cases other
  rw [importedFirst, h] at hother
  rcases duplicateImportIssues_cases tree with ⟨hnone, hnodup⟩ | ⟨i, a, ha, hone⟩
  · rcases hother with ⟨hnone', -⟩ | ⟨j, b, hb, -⟩
    · rw [hnone, hnone']
    · exact absurd hnodup hb.not_nodup
  · rcases hother with ⟨-, hnodup⟩ | ⟨j, b, hb, hone'⟩
    · exact absurd hnodup ha.not_nodup
    · rw [hone, hone', ha.unique hb]

/-! ### What does not count -/

/-- The kinds are the same but for the modules that an import statement names after the first one,
and for statements that import from a module, in whose place anything but an import statement may
stand. -/
inductive AlikeKind : Kind → Kind → Prop
  | same (k : Kind) : AlikeKind k k
  | later (name : String) (names names' : List String) :
      AlikeKind (.imports (name :: names)) (.imports (name :: names'))
  | importsFrom (module : Option String) (names : List String) {k : Kind}
      (hk : ∀ names, k ≠ .imports names) : AlikeKind (.importsFrom module names) k

mutual

/-- The trees have the same shape and places, and kinds that are alike. -/
def Alike : Node → Node → Prop
  | .mk k l c cs, .mk k' l' c' ds => AlikeKind k k' ∧ l = l' ∧ c = c' ∧ AlikeIn cs ds

def AlikeIn : List Node → List Node → Prop
  | [], [] => True
  | n :: ns, m :: ms => Alike n m ∧ AlikeIn ns ms
  | _, _ => False

end

theorem AlikeKind.ownSite_eq {k k' : Kind} (h : AlikeKind k k') (location : Location) :
    ownSite location k' = ownSite location k := by
  cases h with
  | same => rfl
  | later => rfl
  | importsFrom module names hk =>
    unfold ownSite
    split
    · exact absurd rfl (hk _)
    · rfl

theorem Alike.importSites_eq {tree other : Node} (h : Alike tree other) :
    importSites other = importSites tree := by
  induction tree using Node.inductionOn generalizing other with
  | mk k l c cs ih =>
    obtain ⟨k', l', c', ds⟩ := other
    obtain ⟨hkind, rfl, rfl, hchildren⟩ := h
    have hlist : importSitesIn ds = importSitesIn cs := by
      induction cs generalizing ds with
      | nil =>
        cases ds with
        | nil => rfl
        | cons m ms => exact hchildren.elim
      | cons n ns ihns =>
        cases ds with
        | nil => exact hchildren.elim
        | cons m ms =>
          obtain ⟨hhead, htail⟩ := hchildren
          rw [importSitesIn, importSitesIn, ih n (by simp) hhead,
            ihns (fun a ha => ih a (by simp [ha])) ms htail]
    rw [importSites, importSites, hlist, hkind.ownSite_eq]

/-- There is no finding exactly if all import statements name different modules first. Otherwise
there is one, about the first statement that repeats another one; it is the second to name its
module, and no other module is named a second time above it. Statements that import from a module,
and the modules that a statement names after the first one, make no difference. -/
theorem duplicate_imports (tree : Node) :
    (duplicateImportIssues tree = [] ↔ (importedFirst tree).Nodup) ∧
    (¬ (importedFirst tree).Nodup → ∃ j site, FirstRepeat (importSites tree) j site ∧
      duplicateImportIssues tree =
        [{ kind := .duplicateImport, message := "Possible unused or duplicate imports"
           location := some site.location, name := some site.name }]) ∧
    (∀ other, Alike tree other → duplicateImportIssues other = duplicateImportIssues tree) := by
  refine ⟨?_, ?_, fun other h => duplicateImportIssues_congr h.importSites_eq⟩
  · rcases duplicateImportIssues_cases tree with ⟨hnone, hnodup⟩ | ⟨j, site, hfirst, hone⟩
    · simp [hnone, hnodup]
    · simp [hone, importedFirst, hfirst.not_nodup]
  · intro hrepeat
    rcases duplicateImportIssues_cases tree with ⟨-, hnodup⟩ | hfound
    · exact absurd hnodup hrepeat
    · exact hfound

/-- A module that imports `os` twice and `json` twice, one of each inside a function; `os` also as
what is imported from. -/
def importingTree : Node :=
  .mk (.module none) 1 1 [
    .mk (.imports ["os", "sys"]) 1 1 [],
    .mk (.importsFrom (some "os") ["path"]) 2 1 [],
    .mk (.function "load" false none) 3 1 [
      .mk (.imports ["json"]) 4 5 [],
      .mk (.imports ["os"]) 5 5 []],
    .mk (.imports ["json", "sys"]) 6 1 []]

/-- The same with other modules in the places that do not count. -/
def rewordedTree : Node :=
  .mk (.module none) 1 1 [
    .mk (.imports ["os", "json"]) 1 1 [],
    .mk (.importsFrom none ["json"]) 2 1 [],
    .mk (.function "load" false none) 3 1 [
      .mk (.imports ["json", "os"]) 4 5 [],
      .mk (.imports ["os"]) 5 5 []],
    .mk (.imports ["json"]) 6 1 []]

/-- Both trees have a finding, and the same one: `os` is named for the second time above `json`. -/
theorem importingTree_reported :
    ¬ (importedFirst importingTree).Nodup ∧ Alike importingTree rewordedTree ∧
    FirstRepeat (importSites importingTree) 2 ⟨"os", ⟨5, 5⟩⟩ ∧
    (∃ j site, FirstRepeat (importSites importingTree) j site ∧
      duplicateImportIssues importingTree =
        [{ kind := .duplicateImport, message := "Possible unused or duplicate imports"
           location := some site.location, name := some site.name }]) ∧
    duplicateImportIssues rewordedTree = duplicateImportIssues importingTree := by
  obtain ⟨-, hrepeat, halike⟩ := duplicate_imports importingTree
  have hnot : ¬ (importedFirst importingTree).Nodup := by decide
  have hsame : Alike importingTree rewordedTree :=
    ⟨.same _, rfl, rfl, ⟨.later .., rfl, rfl, trivial⟩,
      ⟨.importsFrom _ _ (by simp), rfl, rfl, trivial⟩,
      ⟨.same _, rfl, rfl, ⟨.later .., rfl, rfl, trivial⟩, ⟨.same _, rfl, rfl, trivial⟩, trivial⟩,
      ⟨.later .., rfl, rfl, trivial⟩, trivial⟩
  have hfirst : FirstRepeat (importSites importingTree) 2 ⟨"os", ⟨5, 5⟩⟩ :=
    @firstRepeat_append [⟨"os", ⟨1, 1⟩⟩, ⟨"json", ⟨4, 5⟩⟩] _ _ (by decide) (by decide)
  exact ⟨hnot, hsame, hfirst, hrepeat hnot, halike rewordedTree hsame⟩

end SourceAudit.Audit
