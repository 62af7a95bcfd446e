import SourceAudit.Parsing.Source
import SourceAudit.Language.Layout

/-!
The trees the parser builds: every symbol has a node here, hidden ones included, and each node
carries the sums by which competing parses are compared.
-/

namespace SourceAudit.Parsing

open SourceAudit.Grammar SourceAudit.Language

/-- What a node stands for. -/
inductive Label where
  | token (index : Nat)
  | variable (index : Nat)
  /-- Text that fits nowhere. -/
  | error
  /-- A part of an error still growing. -/
  | errorPart
  deriving BEq, DecidableEq, Inhabited

namespace Label

/-- Order of symbols: tokens, variables, errors. -/
def rank : Label → Nat
  | .token i => i
  | .variable i => lexicon.size + i
  | .errorPart => lexicon.size + variableNames.size
  | .error => lexicon.size + variableNames.size + 1

def appearance : Label → Appearance
  | .token i => tokenAppearances.getD i default
  | .variable i => variableAppearances.getD i default
  | .error => ⟨"ERROR", true, true⟩
  | .errorPart => ⟨"", false, false⟩

def isError : Label → Bool
  | .error => true
  | _ => false

/-- Whether the node collects text that was skipped. -/
def isSkipped : Label → Bool
  | .error | .errorPart => true
  | _ => false

end Label

/-! ### Costs of errors -/

def recoveryCost : Nat := 500
def missingCost : Nat := 110
def skippedTreeCost : Nat := 100
def skippedCharCost : Nat := 1
def skippedLineCost : Nat := 30

/-- A node without its children. Positions are character indices; the gap before the first token
runs from `lead` to `start`. -/
structure Info where
  label : Label
  lead : Nat
  start : Nat
  stop : Nat
  extra : Bool := false
  missing : Bool := false
  /-- Whether a keyword of the lexer, which may also serve as identifier. -/
  keyword : Bool := false
  cost : Nat := 0
  dynamic : Int := 0
  visibleChildren : Nat := 0
  visibleDescendants : Nat := 0
  /-- The production's steps, which give aliases and fields to the children. -/
  steps : Array Step := #[]
  /-- The layout scanner's memory after this token, if the scanner found it. -/
  layout : Option Layout := none
  /-- Whether that memory differs from the one before the token. -/
  layoutChanged : Bool := false
  deriving Inhabited

inductive Tree where
  | node (info : Info) (children : Array Tree)
  deriving Inhabited

namespace Tree

def info : Tree → Info
  | .node i _ => i

def children : Tree → Array Tree
  | .node _ cs => cs

def withInfo (t : Tree) (f : Info → Info) : Tree := .node (f t.info) t.children

def isVisible (t : Tree) : Bool := t.info.label.appearance.visible

/-- Number of nodes a tree counts for when progress is measured. -/
def weight (t : Tree) : Nat :=
  t.info.visibleDescendants + (if t.isVisible then 1 else 0) +
    (if t.info.label == .errorPart then 1 else 0)

/-- Sums over the children seen so far; `slot` counts those that fill a step of the production. -/
structure Sums where
  slot : Nat := 0
  cost : Nat := 0
  dynamic : Int := 0
  visibleChildren : Nat := 0
  visibleDescendants : Nat := 0

def Sums.add (label : Label) (steps : Array Step) (s : Sums) (child : Tree) : Sums :=
  let c := child.info
  let inherited := if c.label == .errorPart then 0 else c.cost
  let skipped :=
    if label.isSkipped && !c.extra && !(c.label.isError && child.children.isEmpty) then
      if child.isVisible then skippedTreeCost
      else if !child.children.isEmpty then skippedTreeCost * c.visibleChildren
      else 0
    else 0
  let aliased := !c.extra && ((steps[s.slot]?).bind (·.rename)).isSome
  let shown := aliased || child.isVisible
  { slot := if c.extra then s.slot else s.slot + 1
    cost := s.cost + inherited + skipped
    dynamic := s.dynamic + c.dynamic
    visibleChildren := s.visibleChildren + (if shown then 1 else c.visibleChildren)
    visibleDescendants := s.visibleDescendants + c.visibleDescendants + (if shown then 1 else 0) }

/-- A node over the given children; without children it stands at `place`. -/
def make (src : Source) (label : Label) (steps : Array Step) (place : Nat)
    (children : Array Tree) : Tree :=
  let sums := children.foldl (Sums.add label steps) {}
  let lead := (children[0]?).elim place (·.info.lead)
  let start := (children[0]?).elim place (·.info.start)
  let stop := (children.back?).elim place (·.info.stop)
  let own :=
    if label.isSkipped then
      recoveryCost + skippedCharCost * src.byteLength start stop +
        skippedLineCost * src.rowCount start stop
    else 0
  .node
    { label, lead, start, stop, steps, cost := sums.cost + own, dynamic := sums.dynamic
      visibleChildren := sums.visibleChildren, visibleDescendants := sums.visibleDescendants }
    children

def addDynamic (t : Tree) (d : Int) : Tree :=
  t.withInfo fun i => { i with dynamic := i.dynamic + d }

def setExtra (t : Tree) (extra : Bool) : Tree := t.withInfo fun i => { i with extra := extra }

/-- A token that should have stood at `place`. -/
def missingLeaf (token place : Nat) : Tree :=
  .node { label := .token token, lead := place, start := place, stop := place, missing := true
          cost := missingCost + recoveryCost } #[]

mutual

/-- Order of trees by symbol, number of children, then children from left to right. -/
def compare : Tree → Tree → Ordering
  | .node i cs, .node j ds =>
    if i.label.rank < j.label.rank then .lt
    else if j.label.rank < i.label.rank then .gt
    else if cs.size < ds.size then .lt
    else if ds.size < cs.size then .gt
    else compareList cs.toList ds.toList

def compareList : List Tree → List Tree → Ordering
  | [], _ => .eq
  | _ :: _, [] => .eq
  | c :: cs, d :: ds =>
    match compare c d with
    | .eq => compareList cs ds
    | o => o

end

/-- Whether `right` should replace `left` as the reading of the same text: fewer errors win, then
higher dynamic precedence, then the order of symbols. -/
def replaces (left right : Tree) : Bool :=
  let l := left.info
  let r := right.info
  if r.cost < l.cost then true
  else if l.cost < r.cost then false
  else if r.dynamic > l.dynamic then true
  else if l.dynamic > r.dynamic then false
  else if l.cost > 0 then true
  else compare left right == .gt

/-- Children up to the last one that is not an extra, and the extras after it. -/
def splitTrailingExtras (children : Array Tree) : Array Tree × Array Tree :=
  let trailing := (children.toList.reverse.takeWhile (·.info.extra)).length
  (children.extract 0 (children.size - trailing),
    children.extract (children.size - trailing) children.size)

end Tree
end SourceAudit.Parsing
