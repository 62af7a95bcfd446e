import SourceAudit.Parsing.Lexer
import SourceAudit.Parsing.Stack

/-!
The steps of the parser on its stack: reading a token, reducing, accepting, and the comparison of
competing versions.
-/

namespace SourceAudit.Parsing

open SourceAudit.Grammar SourceAudit.Language

/-- Versions kept after each round. -/
def maxVersions : Nat := 6

/-- Versions that may exist beyond that within a round. -/
def versionOverflow : Nat := 4

/-- Difference of costs at which the worse version is dropped. -/
def maxCostDifference : Nat := 16 * skippedTreeCost

structure Machine where
  src : Source
  stack : Stack
  finished : Option Tree := none
  acceptCount : Nat := 0

/-! ### The automaton with its recovery state -/

def actionsFor (st : State) (token : Nat) : List Action :=
  if extraTokens.contains token then [.shiftExtra]
  else if st.isRecovery then if recoveryTokens.contains token then [.recover] else []
  else table.actions st token

def validTokens (st : State) : TokenSet :=
  if st.isRecovery then recoveryTokens else (table.row st).valid.union extraTokens

def hasActions (st : State) (token : Nat) : Bool := !(actionsFor st token).isEmpty

/-- Whether the first action for the token is a reduction. -/
def reducesFirst (st : State) (token : Nat) : Bool :=
  match actionsFor st token with
  | .reduce _ :: _ => true
  | _ => false

/-- The state after reading the token, if it can be read and is no extra. -/
def stateAfter? (st : State) (token : Nat) : Option State :=
  match (actionsFor st token).getLast? with
  | some (.shift _) => some (table.goto st (.terminal token))
  | _ => none

/-- The token a leaf stands for; none for an error. -/
def tokenOf? (t : Tree) : Option Nat :=
  match t.info.label with
  | .token n => some n
  | _ => none

/-! ### Comparing versions -/

/-- How well a version does. -/
structure Standing where
  cost : Nat
  count : Nat
  dynamic : Int
  inError : Bool

inductive Preference where
  | takeLeft
  | preferLeft
  | none
  | preferRight
  | takeRight

def Standing.compare (a b : Standing) : Preference :=
  if !a.inError && b.inError then if a.cost < b.cost then .takeLeft else .preferLeft
  else if a.inError && !b.inError then if b.cost < a.cost then .takeRight else .preferRight
  else if a.cost < b.cost then
    if (b.cost - a.cost) * (1 + a.count) > maxCostDifference then .takeLeft else .preferLeft
  else if b.cost < a.cost then
    if (a.cost - b.cost) * (1 + b.count) > maxCostDifference then .takeRight else .preferRight
  else if a.dynamic > b.dynamic then .preferLeft
  else if b.dynamic > a.dynamic then .preferRight
  else .none

def Stack.standing (s : Stack) (v : Nat) : Standing :=
  let paused := (s.head v).isPaused
  { cost := s.errorCost v + (if paused then skippedTreeCost else 0)
    count := s.countSinceError v
    dynamic := (s.top v).dynamic
    inError := paused || (s.state v).isRecovery }

namespace Machine

/-- Whether a version that went on with the given cost would be worse than another one. -/
def betterExists (m : Machine) (v : Nat) (inError : Bool) (cost : Nat) : Bool :=
  let s := m.stack
  match m.finished with
  | some t =>
    if t.info.cost ≤ cost then true else among s
  | none => among s
where
  among (s : Stack) : Bool :=
    let mine : Standing :=
      { cost := cost, count := s.countSinceError v, dynamic := (s.top v).dynamic
        inError := inError }
    (List.range s.versionCount).any fun w =>
      if w == v || !(s.head w).isActive || s.position w < s.position v then false
      else
        match mine.compare (s.standing w) with
        | .takeRight => true
        | .preferRight => s.canMerge w v
        | _ => false

/-! ### Reading and reducing -/

/-- A reduction: the variable, the number of children, and what the production adds. -/
structure Reduction where
  lhs : Nat
  count : Nat
  dynamic : Int
  steps : Array Step

def Reduction.ofItem (i : Nat) : Reduction :=
  let it := table.automaton.item i
  ⟨it.production.lhs, it.dot, it.production.dynamic, it.production.steps⟩

/-- Slices of one version together, in order. -/
def groupSlices : List Stack.Slice → List (Nat × List (Array Tree))
  | [] => []
  | sl :: rest =>
    match groupSlices rest with
    | [] => [(sl.version, [sl.trees])]
    | (v, ts) :: more =>
      if v == sl.version then (v, sl.trees :: ts) :: more else (sl.version, [sl.trees]) :: (v, ts) :: more

/-- The node over the best of several lists of children, and the extras that follow it. -/
def bestParent (src : Source) (r : Reduction) (place : Nat) (first : Array Tree)
    (others : List (Array Tree)) : Tree × Array Tree :=
  let build (trees : Array Tree) : Tree × Array Tree :=
    let (children, extras) := Tree.splitTrailingExtras trees
    (Tree.make src (.variable r.lhs) r.steps place children, extras)
  others.foldl (fun best trees =>
    let candidate := build trees
    if best.1.replaces candidate.1 then candidate else best) (build first)

/-- The first version before `v` with which it can be merged, `skip` apart. -/
def mergeTarget? (s : Stack) (skip v : Nat) : Option Nat :=
  (List.range v).find? fun w => w != skip && s.canMerge w v

/-- One version made by a reduction: its new node is pushed, and it is merged if possible.
The number of versions removed so far is carried along. -/
def finishReduction (src : Source) (v : Nat) (r : Reduction) (halted : Nat)
    (acc : Stack × Nat) (group : Nat × List (Array Tree)) : Stack × Nat :=
  let (s, removed) := acc
  let w := group.1 - removed
  if w > maxVersions + versionOverflow + halted then (s.removeVersion w, removed + 1)
  else
    match group.2 with
    | [] => acc
    | first :: others =>
      let (parent, extras) := bestParent src r (s.position w) first others
      let next := table.goto (s.state w) (.variable r.lhs)
      let s := s.push w (some (parent.addDynamic r.dynamic)) next
      let s := extras.foldl (fun s t => s.push w (some t) next) s
      match mergeTarget? s v w with
      | some u => (s.merge u w, removed + 1)
      | none => (s, removed)

/-- Performs a reduction on version `v`. The results are new versions; the number of the first one
is returned if any is left after merging. -/
def reduce (m : Machine) (v : Nat) (r : Reduction) : Machine × Option Nat :=
  let before := m.stack.versionCount
  let (s, slices) := m.stack.pop v r.count
  let halted := (s.heads.filter Head.isHalted).size
  let (s, _) := (groupSlices slices).foldl (finishReduction m.src v r halted) (s, 0)
  ({ m with stack := s }, if s.versionCount > before then some before else none)

def rememberLayout (s : Stack) (v : Nat) (t : Tree) : Stack :=
  match t.info.layout with
  | none => s
  | some l => s.modifyHead v fun h => { h with layout := some l }

def shift (m : Machine) (v : Nat) (next : State) (t : Tree) (extra : Bool) : Machine :=
  let t := t.setExtra extra
  { m with stack := rememberLayout (m.stack.push v (some t) next) v t }

/-- The root: the last tree that is no extra, with everything around it as further children. -/
def rootOf (src : Source) (trees : Array Tree) : Option Tree :=
  let extrasBehind := (trees.toList.reverse.takeWhile (·.info.extra)).length
  let i := trees.size - extrasBehind - 1
  if extrasBehind == trees.size then none
  else
    (trees[i]?).map fun t =>
      Tree.make src t.info.label t.info.steps t.info.start
        (trees.extract 0 i ++ t.children ++ trees.extract (i + 1) trees.size)

/-- Ends version `v` at the end of the text; the better of several results is kept. -/
def accept (m : Machine) (v : Nat) (endOfText : Tree) : Machine :=
  let s := m.stack.push v (some (endOfText.setExtra true)) .recovery
  let (s', slices) := s.popAll v
  let m := slices.foldl (fun m sl =>
    match rootOf m.src sl.trees with
    | none => m
    | some root =>
      let keep := match m.finished with
        | none => root
        | some old => if old.replaces root then root else old
      { m with finished := some keep, acceptCount := m.acceptCount + 1 }) m
  let s' := match slices with
    | [] => s'
    | sl :: _ => s'.removeVersion sl.version
  { m with stack := s'.halt v }

end Machine
end SourceAudit.Parsing
