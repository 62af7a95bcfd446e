import SourceAudit.Parsing.Tree
import SourceAudit.Grammar.Automaton

/-!
The parse stack as a graph. Several readings of the text are followed at once; each is a version
whose head is a node of the graph, and versions that reach the same state at the same place share
their nodes from there on.
-/

namespace SourceAudit.Parsing

open SourceAudit.Grammar SourceAudit.Language

/-- An edge to the node below with the tree between them; no tree marks the point of an error. -/
structure Link where
  below : Nat
  tree : Option Tree
  deriving Inhabited

structure StackNode where
  state : State
  position : Nat
  links : Array Link := #[]
  cost : Nat := 0
  count : Nat := 0
  dynamic : Int := 0
  deriving Inhabited

/-- A state found on the way down from an error, with its distance. -/
structure Landing where
  position : Nat
  depth : Nat
  state : State
  deriving Inhabited

inductive Status where
  | active
  /-- Stopped at a token it has no action for. -/
  | paused (lookahead : Tree)
  | halted
  deriving Inhabited

/-- One reading of the text. -/
structure Head where
  node : Nat
  layout : Option Layout := none
  landings : Option (Array Landing) := none
  countAtError : Nat := 0
  status : Status := .active
  deriving Inhabited

def Head.isActive (h : Head) : Bool := match h.status with | .active => true | _ => false
def Head.isPaused (h : Head) : Bool := match h.status with | .paused _ => true | _ => false
def Head.isHalted (h : Head) : Bool := match h.status with | .halted => true | _ => false

structure Stack where
  nodes : Array StackNode
  heads : Array Head
  deriving Inhabited

namespace Stack

def initial (start : State) : Stack :=
  ⟨#[{ state := start, position := 0 }], #[{ node := 0 }]⟩

/-- The node with the given number. -/
def node (s : Stack) (n : Nat) : StackNode := s.nodes.getD n default

/-- The head of a version. -/
def head (s : Stack) (v : Nat) : Head := s.heads.getD v default

def top (s : Stack) (v : Nat) : StackNode := s.node (s.head v).node

def state (s : Stack) (v : Nat) : State := (s.top v).state

def position (s : Stack) (v : Nat) : Nat := (s.top v).position

def versionCount (s : Stack) : Nat := s.heads.size

def modifyHead (s : Stack) (v : Nat) (f : Head → Head) : Stack :=
  { s with heads := s.heads.modify v f }

def push (s : Stack) (v : Nat) (tree : Option Tree) (state : State) : Stack :=
  let h := s.head v
  let prev := s.node h.node
  let new : StackNode := match tree with
    | none => { prev with state := state, links := #[⟨h.node, none⟩] }
    | some t =>
      { state := state, position := t.info.stop, links := #[⟨h.node, tree⟩]
        cost := prev.cost + t.info.cost, count := prev.count + t.weight
        dynamic := prev.dynamic + t.info.dynamic }
  let id := s.nodes.size
  let s := { s with nodes := s.nodes.push new }
  s.modifyHead v fun h =>
    { h with node := id, countAtError := if tree.isNone then new.count else h.countAtError }

/-! ### Merging -/

/-- Whether two trees on parallel links read the text the same way as far as later steps can tell. -/
def equivalent : Option Tree → Option Tree → Bool
  | none, none => true
  | some a, some b =>
    let i := a.info
    let j := b.info
    i.label == j.label &&
      ((i.cost > 0 && j.cost > 0) ||
        (i.lead == j.lead && i.start == j.start && i.stop == j.stop &&
          a.children.size == b.children.size && i.extra == j.extra && i.layout == j.layout))
  | _, _ => false

def maxLinks : Nat := 8

/-- Adds a link to a node. Links to the same node, or to nodes that can themselves be merged, are
combined; `fuel` bounds the depth of that. -/
def addLink : Nat → Stack → Nat → Link → Stack
  | 0, s, _, _ => s
  | fuel + 1, s, n, link =>
    if link.below == n then s
    else
      let self := s.node n
      let dynamicOf (t : Option Tree) : Int := t.elim 0 (·.info.dynamic)
      let decided := self.links.findIdx? fun old =>
        equivalent old.tree link.tree &&
          (old.below == link.below ||
            (let a := s.node old.below
             let b := s.node link.below
             a.state == b.state && a.position == b.position && a.cost == b.cost))
      match decided with
      | some i =>
        let old := self.links.getD i default
        if old.below == link.below then
          if dynamicOf link.tree > dynamicOf old.tree then
            { s with nodes := s.nodes.modify n fun self =>
              { self with
                links := self.links.set! i link
                dynamic := (s.node link.below).dynamic + dynamicOf link.tree } }
          else s
        else
          let lower := s.node link.below
          let s := lower.links.foldl (fun s l => addLink fuel s old.below l) s
          let dynamic := lower.dynamic + dynamicOf link.tree
          { s with nodes := s.nodes.modify n fun self =>
            { self with dynamic := max self.dynamic dynamic } }
      | none =>
        if self.links.size ≥ maxLinks then s
        else
          let lower := s.node link.below
          let count := lower.count + link.tree.elim 0 Tree.weight
          let dynamic := lower.dynamic + dynamicOf link.tree
          { s with nodes := s.nodes.modify n fun self =>
            { self with
              links := self.links.push link
              count := max self.count count
              dynamic := max self.dynamic dynamic } }

def removeVersion (s : Stack) (v : Nat) : Stack := { s with heads := s.heads.eraseIdxIfInBounds v }

/-- Whether two versions are in the same state at the same place with equal cost and layout. -/
def canMerge (s : Stack) (v w : Nat) : Bool :=
  let a := s.head v
  let b := s.head w
  let m := s.node a.node
  let n := s.node b.node
  a.isActive && b.isActive && m.position == n.position && m.cost == n.cost &&
    a.layout == b.layout && m.state == n.state

/-- Joins version `w` into version `v`, with which it can be merged. -/
def merge (s : Stack) (v w : Nat) : Stack :=
  let into := (s.head v).node
  let s := (s.top w).links.foldl (fun s l => addLink (s.nodes.size + 1) s into l) s
  let s :=
    if (s.top v).state.isRecovery then
      let count := (s.top v).count
      s.modifyHead v fun h => { h with countAtError := count }
    else s
  s.removeVersion w

/-! ### Going down -/

/-- A way down from the head: the node reached, the trees passed (topmost first), and their number,
extras not counted. -/
structure Descent where
  node : Nat
  trees : List Tree := []
  count : Nat := 0

def Descent.follow (d : Descent) (l : Link) : Descent :=
  match l.tree with
  | none => { d with node := l.below, count := d.count + 1 }
  | some t =>
    { node := l.below, trees := t :: d.trees
      count := if t.info.extra then d.count else d.count + 1 }

def maxDescents : Nat := 64

/-- What to do with a descent. -/
structure Visit where
  take : Bool
  stop : Bool

/-- The descents in progress, those taken so far, and what the visitor remembers. -/
structure Descending (σ : Type) where
  memory : σ
  taken : Array Descent := #[]

/-- Moves every descent one link down. `visit` sees each node reached. -/
def stepDown {σ : Type} (s : Stack) (visit : σ → Descent → σ × Visit) :
    List Descent → Array Descent → Array Descent → Descending σ → List Descent × Descending σ
  | [], kept, added, acc => ((kept ++ added).toList, acc)
  | d :: rest, kept, added, acc =>
    let (memory, todo) := visit acc.memory d
    let acc := { acc with memory := memory }
    let links := (s.node d.node).links
    let acc := if todo.take then { acc with taken := acc.taken.push d } else acc
    if todo.stop || links.isEmpty then stepDown s visit rest kept added acc
    else
      let room := maxDescents - (kept.size + 1 + rest.length + added.size)
      let others := ((links.toList.drop 1).take room).map d.follow
      let first := links.getD 0 default
      stepDown s visit rest (kept.push (d.follow first)) (added ++ others.toArray) acc

/-- Follows all descents until none is left. -/
def descendAll {σ : Type} (s : Stack) (visit : σ → Descent → σ × Visit) :
    Nat → List Descent → Descending σ → Descending σ
  | 0, _, acc => acc
  | _ + 1, [], acc => acc
  | fuel + 1, ds, acc =>
    let (ds, acc) := stepDown s visit ds #[] #[] acc
    descendAll s visit fuel ds acc

def descend {σ : Type} (s : Stack) (v : Nat) (visit : σ → Descent → σ × Visit) (memory : σ) :
    Descending σ :=
  descendAll s visit (s.nodes.size + 2) [{ node := (s.head v).node }] { memory := memory }

/-- Trees taken off a version, and the version that is left. -/
structure Slice where
  version : Nat
  trees : Array Tree
  deriving Inhabited

/-- Makes a version for each node reached; ways down to the same node share it and stand together. -/
def addSlice (origin : Head) (acc : Stack × List Slice) (d : Descent) : Stack × List Slice :=
  let (s, slices) := acc
  let trees := d.trees.toArray
  match slices.reverse.find? fun sl => (s.head sl.version).node == d.node with
  | some same =>
    let front := slices.reverse.dropWhile fun sl => sl.version != same.version
    let back := slices.reverse.takeWhile fun sl => sl.version != same.version
    (s, front.reverse ++ [⟨same.version, trees⟩] ++ back.reverse)
  | none =>
    let head : Head := { node := d.node, layout := origin.layout, countAtError := origin.countAtError }
    ({ s with heads := s.heads.push head }, slices ++ [⟨s.heads.size, trees⟩])

def slicesOf (s : Stack) (v : Nat) (taken : Array Descent) : Stack × List Slice :=
  taken.foldl (addSlice (s.head v)) (s, [])

/-- Takes `count` trees off a version, along every path. -/
def pop (s : Stack) (v count : Nat) : Stack × List Slice :=
  let found := s.descend v (fun _ d => ((), ⟨d.count == count, d.count == count⟩)) ()
  s.slicesOf v found.taken

/-- Takes everything off a version. -/
def popAll (s : Stack) (v : Nat) : Stack × List Slice :=
  let found := s.descend v (fun _ d =>
    let bottom := (s.node d.node).links.isEmpty
    ((), ⟨bottom, false⟩)) ()
  s.slicesOf v found.taken

/-- Puts version `v` in the place of version `w`; it disappears from its own place. -/
def renumber (s : Stack) (v w : Nat) : Stack :=
  if v == w then s
  else
    let head := s.head v
    let head := { head with landings := head.landings <|> (s.head w).landings }
    { s with heads := (s.heads.set! w head).eraseIdxIfInBounds v }

def swapVersions (s : Stack) (v w : Nat) : Stack :=
  let a := s.head v
  let b := s.head w
  { s with heads := (s.heads.set! v b).set! w a }

/-- Copies a version; the copy is the last one. -/
def copyVersion (s : Stack) (v : Nat) : Stack × Nat :=
  ({ s with heads := s.heads.push { s.head v with landings := none } }, s.heads.size)

def halt (s : Stack) (v : Nat) : Stack := s.modifyHead v ({ · with status := .halted })

def pause (s : Stack) (v : Nat) (lookahead : Tree) : Stack :=
  let count := (s.top v).count
  s.modifyHead v fun h => { h with status := .paused lookahead, countAtError := count }

/-- The error directly below the head, if there is one, and the version without it. -/
def popError (s : Stack) (v : Nat) : Stack × Option Tree :=
  let isError (t : Option Tree) : Bool := t.elim false (·.info.label.isError)
  match (s.top v).links.find? fun l => isError l.tree with
  | none => (s, none)
  | some _ =>
    let found := s.descend v (fun seen d =>
      match d.trees with
      | [] => (seen, ⟨false, false⟩)
      | t :: _ =>
        if !seen && t.info.label.isError then (true, ⟨true, true⟩) else (seen, ⟨false, true⟩)) false
    let (s', slices) := s.slicesOf v found.taken
    match slices with
    | [] => (s, none)
    | sl :: _ => (s'.renumber sl.version v, sl.trees[0]?)

/-! ### Comparing versions -/

/-- Depth to which states are remembered at an error. -/
def maxLandingDepth : Nat := 16

/-- Remembers the states below the head and how deep they lie. -/
def recordLandings (s : Stack) (v : Nat) : Stack :=
  let found := s.descend v (fun (seen : Array Landing) d =>
    let n := s.node d.node
    if d.count > maxLandingDepth then (seen, ⟨false, true⟩)
    else if (seen.toList.reverse.takeWhile (·.depth ≥ d.count)).any fun l =>
        l.depth == d.count && l.state == n.state then (seen, ⟨false, false⟩)
    else (seen.push ⟨n.position, d.count, n.state⟩, ⟨false, false⟩)) #[]
  s.modifyHead v fun h => { h with landings := some found.memory }

/-- Cost of a version's errors, an error being entered included. -/
def errorCost (s : Stack) (v : Nat) : Nat :=
  let h := s.head v
  let n := s.node h.node
  let entering := n.state.isRecovery && ((n.links[0]?).elim true (·.tree.isNone))
  n.cost + (if h.isPaused || entering then recoveryCost else 0)

/-- Lowers the mark of the last error where the version has become shorter than it. -/
def settleCounts (s : Stack) : Stack :=
  { s with heads := s.heads.map fun h =>
      { h with countAtError := min h.countAtError (s.node h.node).count } }

def countSinceError (s : Stack) (v : Nat) : Nat := (s.top v).count - (s.head v).countAtError

/-- The first link of a node that carries a tree. -/
def firstLink? (n : StackNode) : Option (Nat × Tree) :=
  (n.links[0]?).bind fun l => l.tree.map fun t => (l.below, t)

/-- Whether text was read since the last error. -/
def advancedFrom (s : Stack) (h : Head) : Nat → Nat → Bool
  | 0, _ => false
  | fuel + 1, n =>
    let node := s.node n
    match firstLink? node with
    | some (below, t) =>
      if t.info.stop > t.info.lead then true
      else if node.count > h.countAtError && t.info.cost == 0 then advancedFrom s h fuel below
      else false
    | none => false

def advancedSinceError (s : Stack) (v : Nat) : Bool :=
  (s.top v).cost == 0 || advancedFrom s (s.head v) (s.nodes.size + 1) (s.head v).node

end Stack
end SourceAudit.Parsing
