import SourceAudit.Grammar.States

/-!
Groups of states that can be put together without a change of their actions. A state that has been
put together with others knows more look-ahead tokens than the input before it allows, so an error
may be noticed some reductions later; the language stays the same.
-/

namespace SourceAudit.Grammar

/-- What decides whether a token may be added to a state. -/
structure Mergeability where
  /-- Tokens that are never added, because the scanner of the layout looks at their presence. -/
  fixed : TokenSet
  /-- For each token, those with which it must not be put together. -/
  rivals : Array TokenSet
  deriving Inhabited

/-- A grouping of states: the group of each state, and the states of each group. -/
structure Grouping where
  groupOf : Array Nat
  groups : Array (Array Nat)
  deriving Inhabited

/-- All states of a core in one group. -/
def Grouping.byCore (states : Array FullState) : Grouping :=
  let count := states.foldl (fun n s => max n (s.core + 1)) 0
  { groupOf := states.map (·.core)
    groups := (Array.range states.size).foldl (fun groups i =>
      groups.modify (states.getD i default).core (·.push i)) (Array.replicate count #[]) }

/-- Whether a token of `new` must not be added to a state with the tokens `old`. -/
def Mergeability.refuses (m : Mergeability) (new old : TokenSet) : Bool :=
  !(new.inter m.fixed).isEmpty ||
    new.toList.any fun t => !((m.rivals.getD t .empty).inter old).isEmpty

/-- Tokens that some finished item of one state has as look-ahead and the same item of the other
state has not. -/
def differing : List Seed → List Seed → TokenSet
  | s :: ss, t :: ts =>
    (s.lookahead.diff t.lookahead).union ((t.lookahead.diff s.lookahead).union (differing ss ts))
  | _, _ => .empty

/-- What an action does; two items with the same variable, length, dynamic precedence, names and
fields are reduced alike. -/
def Automaton.effect (a : Automaton) :
    Action → Action × Option (Nat × Nat × Int × Array (Option Alias × Option String))
  | .reduce i =>
    let it := a.item i
    (.reduce 0, some (it.production.lhs, it.dot, it.production.dynamic,
      it.production.steps.map fun st => (st.rename, st.field)))
  | act => (act, none)

/-- Whether the targets of two states of one core, for the given symbols, lie in different groups. -/
def targetsDiffer (groupOf : Array Nat) (relevant : Nat → Bool) (s t : FullState) : Bool :=
  (Array.range s.targets.size).any fun i =>
    let (x, n) := s.targets.getD i (0, 0)
    let (_, m) := t.targets.getD i (0, 0)
    relevant x && groupOf.getD n 0 != groupOf.getD m 0

/-- Whether two states of one core have to stay apart. -/
def Automaton.conflict (a : Automaton) (m : Mergeability) (groupOf : Array Nat)
    (s t : FullState) : Bool :=
  m.refuses (s.valid.diff t.valid) t.valid || m.refuses (t.valid.diff s.valid) s.valid ||
    (let both := (differing s.finished t.finished).inter (s.valid.inter t.valid)
     !both.isEmpty && both.toList.any fun x =>
      (a.actions s.kernel x).map a.effect != (a.actions t.kernel x).map a.effect) ||
    (let shifted := s.shifted.inter t.shifted
     targetsDiffer groupOf (fun x => x < a.tokenCount && shifted.contains x) s t)

/-- The states of a group that cannot stay with an earlier one that stays. -/
def parted (apart : Nat → Nat → Bool) : Nat → List Nat → List Nat
  | 0, _ => []
  | _, [] => []
  | fuel + 1, i :: rest =>
    let (out, stay) := rest.partition (apart i)
    out ++ parted apart fuel stay

/-- Takes the given states out of a group and makes them a new one. -/
def Grouping.split (g : Grouping) (group : Nat) (out : List Nat) : Grouping :=
  let next := g.groups.size
  { groupOf := out.foldl (fun acc i => acc.set! i next) g.groupOf
    groups := (g.groups.modify group (·.filter fun i => !out.contains i)).push out.toArray }

/-- Divides the groups one after another, those that come into being on the way included. The groups
so far decide which states have to be apart. Returns whether a group was divided. -/
def Grouping.divide (pick : Array Nat → List Nat → List Nat) :
    Nat → Nat → Grouping → Bool → Grouping × Bool
  | 0, _, g, changed => (g, changed)
  | fuel + 1, i, g, changed =>
    match g.groups[i]? with
    | none => (g, changed)
    | some members =>
      match pick g.groupOf members.toList with
      | [] => divide pick fuel (i + 1) g changed
      | out => divide pick fuel (i + 1) (g.split i out) true

/-- Divides until nothing changes any more. -/
def Grouping.settle (pick : Array Nat → List Nat → List Nat) : Nat → Grouping → Grouping
  | 0, g => g
  | fuel + 1, g =>
    let (g', changed) := g.divide pick maxStates 0 false
    if changed then settle pick fuel g' else g'

/-- The grouping of the states: apart are those with rival tokens, with different actions for one
token, or with targets that are apart. -/
def Automaton.grouping (a : Automaton) (m : Mergeability) (states : Array FullState) : Grouping :=
  let state (i : Nat) : FullState := states.getD i default
  let clash (groupOf : Array Nat) (members : List Nat) : List Nat :=
    parted (fun i j => a.conflict m groupOf (state i) (state j)) members.length members
  let lead (groupOf : Array Nat) (members : List Nat) : List Nat :=
    match members with
    | [] => []
    | i :: rest =>
      let s := state i
      rest.filter fun j => targetsDiffer groupOf
        (fun x => a.tokenCount ≤ x || s.shifted.contains x) s (state j)
  let (g, _) := (Grouping.byCore states).divide clash maxStates 0 false
  g.settle lead maxStates

end SourceAudit.Grammar
