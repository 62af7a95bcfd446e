import Std.Data.HashMap
import SourceAudit.Grammar.Production
import SourceAudit.Grammar.TokenSet

/-!
The look-ahead automaton of a grammar, one token ahead. Successors and actions of a
kernel are computed with the help of a table that says, for each variable, what its closure
contributes after each symbol.
-/

namespace SourceAudit.Grammar

/-- What counts of a production and a position in it: two items with equal keys have the same future
and build the same node. The symbols already passed count only if one of them hands fields up. -/
structure ItemKey where
  lhs : Nat
  dot : Nat
  dynamic : Int
  length : Nat
  prec : Option Int
  assoc : Option Assoc
  handsUpFields : Bool
  before : Array (Option Alias × Option String × Option Symbol)
  after : Array Step
  deriving BEq, Hashable

/-- A production and a position in it. -/
structure Item where
  production : Production
  dot : Nat
  /-- The symbol after the position. -/
  next : Option Symbol
  /-- Number of the item one symbol further. -/
  advanced : Nat
  /-- First tokens of the symbol after `next`; absent if `next` is the last one. -/
  follow : Option TokenSet
  deriving Inhabited

namespace Item

/-- The step before the position, which gives the item its precedence. -/
def lastStep? (i : Item) : Option Step :=
  if i.dot == 0 then none else i.production.steps[i.dot - 1]?

def prec (i : Item) : Int := (i.lastStep?.bind (·.prec)).getD 0

def assoc (i : Item) : Option Assoc := i.lastStep?.bind (·.assoc)

end Item

/-- A contribution of a variable's closure: the item reached after one symbol, the look-ahead tokens
it has in any case, and whether it also takes over those of the variable. -/
structure Reach where
  item : Nat
  added : TokenSet
  propagates : Bool
  deriving Inhabited

/-- The automaton's tables. -/
structure Automaton where
  tokenCount : Nat
  variableCount : Nat
  /-- Whether a variable was made for a repetition. -/
  auxiliary : Array Bool
  items : Array Item
  /-- First tokens of each variable. -/
  first : Array TokenSet
  /-- For each variable and symbol number, what its closure contributes after the symbol. -/
  reaches : Array (Array (Array Reach))
  /-- For each variable, the empty productions in its closure. -/
  empties : Array (Array Reach)
  /-- The item before anything is read. -/
  startItem : Nat
  deriving Inhabited

/-! ### Construction -/

def symbolNumber (tokenCount : Nat) : Symbol → Nat
  | .terminal i => i
  | .variable i => tokenCount + i

def firstOf (first : Array TokenSet) : Symbol → TokenSet
  | .terminal i => .singleton i
  | .variable i => first.getD i .empty

/-- One round of the first-token computation. -/
def growFirst (productions : Array Production) (first : Array TokenSet) : Array TokenSet :=
  productions.foldl (fun acc p =>
    match p.steps[0]? with
    | none => acc
    | some st => acc.modify p.lhs (·.union (firstOf acc st.symbol))) first

/-- Repeats `f` until nothing changes, at most `fuel` times. -/
def untilStable {α : Type} [BEq α] (f : α → α) : Nat → α → α
  | 0, a => a
  | fuel + 1, a =>
    let b := f a
    if b == a then a else untilStable f fuel b

def firstSets (variableCount : Nat) (productions : Array Production) : Array TokenSet :=
  untilStable (growFirst productions) (variableCount + 1) (Array.replicate variableCount .empty)

/-- How a variable is reached in the closure of another one. -/
structure Contribution where
  reached : Bool := false
  added : TokenSet := .empty
  propagates : Bool := false
  deriving BEq, Inhabited

def Production.firstSymbol? (p : Production) : Option Symbol :=
  (p.steps[0]?).map (·.symbol)

/-- The variable that starts a production, with the first tokens of what follows it there. -/
abbrev LeftCorner := Nat × Option TokenSet

def leftCorners (variableCount : Nat) (first : Array TokenSet) (productions : Array Production) :
    Array (Array LeftCorner) :=
  productions.foldl (fun acc p =>
    match p.firstSymbol? with
    | some (.variable v) =>
      let corner := (v, (p.steps[1]?).map fun st => firstOf first st.symbol)
      acc.modify p.lhs fun cs => if cs.contains corner then cs else cs.push corner
    | _ => acc) (Array.replicate variableCount #[])

/-- Hands the look-ahead of every reached variable on to its left corners. -/
def growClosure (corners : Array (Array LeftCorner)) (cs : Array Contribution) :
    Array Contribution :=
  (Array.range cs.size).foldl (fun cs m =>
    let c := cs.getD m {}
    if !c.reached then cs
    else (corners.getD m #[]).foldl (fun cs (v, follow) =>
      cs.modify v fun d =>
        match follow with
        | some tokens => { d with reached := true, added := d.added.union tokens }
        | none =>
          { reached := true, added := d.added.union c.added,
            propagates := d.propagates || c.propagates }) cs) cs

def closureOf (variableCount : Nat) (corners : Array (Array LeftCorner)) (v : Nat) :
    Array Contribution :=
  untilStable (growClosure corners) (2 * variableCount + 2)
    ((Array.replicate variableCount {}).set! v { reached := true, propagates := true })

def addReach (rs : Array Reach) (r : Reach) : Array Reach :=
  match rs.findIdx? (·.item == r.item) with
  | some i => rs.modify i fun s =>
      { s with added := s.added.union r.added, propagates := s.propagates || r.propagates }
  | none => rs.push r

def ItemKey.of (handsUp : Symbol → Bool) (p : Production) (dot : Nat) : ItemKey :=
  let before := p.steps.extract 0 dot
  let handsUpFields := before.any fun st => handsUp st.symbol
  let last := if dot == 0 then none else p.steps[dot - 1]?
  { lhs := p.lhs, dot := dot, dynamic := p.dynamic, length := p.steps.size
    prec := last.bind (·.prec), assoc := last.bind (·.assoc), handsUpFields := handsUpFields
    before := before.map fun st =>
      (st.rename, st.field, if handsUpFields then some st.symbol else none)
    after := p.steps.extract dot p.steps.size }

/-- Items are ordered by position, variable, dynamic precedence, length, precedence and
associativity. Reductions are listed in this order. -/
def ItemKey.rank (k : ItemKey) : List Int :=
  [k.dot, k.lhs, k.dynamic, k.length,
   match k.prec with | none => -1000 | some p => p,
   match k.assoc with | none => 0 | some .left => 1 | some .right => 2]

/-- Lexicographic order on ranks. -/
def rankLe : List Int → List Int → Bool
  | [], _ => true
  | _ :: _, [] => false
  | a :: as, b :: bs => if a < b then true else if b < a then false else rankLe as bs

/-- One item per key: the first production and position that has it. -/
def collectKeys (handsUp : Symbol → Bool) (productions : Array Production) :
    Array (ItemKey × Production) :=
  (productions.foldl (fun acc p =>
    (List.range (p.steps.size + 1)).foldl (fun (seen, out) dot =>
      let k := ItemKey.of handsUp p dot
      if seen.contains k then (seen, out) else (seen.insert k (), out.push (k, p))) acc)
    ((∅ : Std.HashMap ItemKey Unit), (#[] : Array (ItemKey × Production)))).2

/-- Which variables hand fields up to the node that contains them: hidden ones with a field inside. -/
def fieldCarriers (hidden : Array Bool) (productions : Array Production) : Array Bool :=
  let carries (acc : Array Bool) (s : Symbol) : Bool :=
    match s with
    | .terminal _ => false
    | .variable v => hidden.getD v false && acc.getD v false
  untilStable (fun acc => productions.foldl (fun acc p =>
      if p.steps.any (fun st => st.field.isSome || carries acc st.symbol)
      then acc.set! p.lhs true else acc) acc)
    (hidden.size + 1) (Array.replicate hidden.size false)

/-- Builds the tables. `start` is the start variable; the start item belongs to a variable of its
own, numbered `hidden.size`. -/
def Automaton.build (tokenCount : Nat) (hidden auxiliary : Array Bool)
    (productions : Array Production) (start : Nat) : Automaton :=
  let variableCount := hidden.size
  let carriers := fieldCarriers hidden productions
  let handsUp : Symbol → Bool
    | .terminal _ => false
    | .variable v => hidden.getD v false && carriers.getD v false
  let first := firstSets variableCount productions
  let goal : Production := ⟨variableCount, #[⟨.variable start, none, none, none, none⟩], 0⟩
  let keyed := (collectKeys handsUp (productions.push goal)).toList.mergeSort
    fun a b => rankLe a.1.rank b.1.rank
  let numbering : Std.HashMap ItemKey Nat :=
    keyed.zipIdx.foldl (fun m ((k, _), i) => m.insert k i) ∅
  let number (p : Production) (dot : Nat) : Nat := numbering.getD (ItemKey.of handsUp p dot) 0
  let items := keyed.toArray.map fun (k, p) =>
    { production := p, dot := k.dot
      next := (p.steps[k.dot]?).map (·.symbol)
      advanced := number p (k.dot + 1)
      follow := (p.steps[k.dot + 1]?).map fun st => firstOf first st.symbol : Item }
  let corners := leftCorners variableCount first productions
  let byLhs := productions.foldl (fun acc p => acc.modify p.lhs (·.push p))
    (Array.replicate variableCount (#[] : Array Production))
  let starts := byLhs.map fun ps => ps.filterMap fun p =>
    (p.steps[0]?).map fun st => (symbolNumber tokenCount st.symbol, number p 1)
  let closures := (Array.range variableCount).map (closureOf variableCount corners)
  let reaches := closures.map fun cs =>
    (Array.range variableCount).foldl (fun table m =>
      let c := cs.getD m {}
      if !c.reached then table
      else (starts.getD m #[]).foldl (fun table (x, item) =>
        table.modify x (addReach · ⟨item, c.added, c.propagates⟩)) table)
      (Array.replicate (tokenCount + variableCount) #[])
  let empties := closures.map fun cs =>
    (Array.range variableCount).foldl (fun out m =>
      let c := cs.getD m {}
      if !c.reached then out
      else (byLhs.getD m #[]).foldl (fun out p =>
        if p.steps.isEmpty then addReach out ⟨number p 0, c.added, c.propagates⟩ else out) out) #[]
  { tokenCount, variableCount, auxiliary, items, first, reaches, empties
    startItem := number goal 0 }

/-! ### Kernels -/

/-- A kernel item with its look-ahead tokens. -/
structure Seed where
  item : Nat
  lookahead : TokenSet
  deriving BEq, Hashable, Inhabited

/-- The kernel of a state, ordered by item. The state of error recovery has the empty one. -/
structure Kernel where
  seeds : Array Seed
  deriving BEq, Hashable, Inhabited

/-- Adds look-ahead tokens to an item of an ordered list. -/
def addSeed (item : Nat) (tokens : TokenSet) : List Seed → List Seed
  | [] => [⟨item, tokens⟩]
  | s :: rest =>
    if item < s.item then ⟨item, tokens⟩ :: s :: rest
    else if item == s.item then ⟨item, s.lookahead.union tokens⟩ :: rest
    else s :: addSeed item tokens rest

inductive Action where
  /-- Read the token; `repetition` marks the reading of a longer repetition, which is only
  possible and never done, because the shorter one is closed first. -/
  | shift (repetition : Bool)
  | shiftExtra
  | reduce (item : Nat)
  | accept
  | recover
  deriving BEq, Inhabited

namespace Automaton

variable (a : Automaton)

/-- The item with the given number. -/
def item (i : Nat) : Item := a.items.getD i default

def start : Kernel := ⟨#[⟨a.startItem, .singleton 0⟩]⟩

/-- Look-ahead tokens of the variable after the position of a kernel item. -/
def passedOn (it : Item) (s : Seed) : TokenSet := it.follow.getD s.lookahead

/-- The kernel after reading the symbol `x`; empty if it cannot be read. -/
def goto (k : Kernel) (x : Symbol) : Kernel :=
  let number := symbolNumber a.tokenCount x
  let seeds := k.seeds.foldl (fun acc s =>
    let it := a.item s.item
    let acc := if it.next == some x then addSeed it.advanced s.lookahead acc else acc
    match it.next with
    | some (.variable v) =>
      ((a.reaches.getD v #[]).getD number #[]).foldl (fun acc r =>
        let tokens := if r.propagates then r.added.union (passedOn it s) else r.added
        addSeed r.item tokens acc) acc
    | _ => acc) []
  ⟨seeds.toArray⟩

/-- Whether the token can follow the position of an unfinished item. -/
def starts (it : Item) (t : Nat) : Bool :=
  match it.next with
  | some x => (firstOf a.first x).contains t
  | none => false

/-- Finished items with their look-ahead, in item order. -/
def finished (k : Kernel) : List Seed :=
  k.seeds.foldl (fun acc s =>
    let it := a.item s.item
    match it.next with
    | none => acc ++ [s]
    | some (.variable v) =>
      (a.empties.getD v #[]).foldl (fun acc r =>
        let tokens := if r.propagates then r.added.union (passedOn it s) else r.added
        addSeed r.item tokens acc) acc
    | some (.terminal _) => acc) []

/-- The tokens for which the state has an action, extras apart. -/
def validTokens (k : Kernel) : TokenSet :=
  let fromKernel := k.seeds.foldl (fun acc s =>
    match (a.item s.item).next with
    | none => acc
    | some x => acc.union (firstOf a.first x)) TokenSet.empty
  (a.finished k).foldl (fun acc s => acc.union s.lookahead) fromKernel

/-- The actions for token `t`: reductions, then the shift. A conflict is decided by precedence,
then by associativity; what these leave open stays open and is followed in parallel. -/
def actions (k : Kernel) (t : Nat) : List Action :=
  let done := (a.finished k).filter (·.lookahead.contains t)
  let candidates := done.map fun s => (s.item, a.item s.item)
  let top := candidates.foldl (fun best (_, it) => max best it.prec)
    ((candidates.head?.map (·.2.prec)).getD 0)
  let kept := candidates.filter fun (_, it) => it.prec == top
  let reduces := kept.map fun (i, it) =>
    if it.production.lhs == a.variableCount then Action.accept else .reduce i
  let shifting := (k.seeds.map fun s => a.item s.item).filter fun it => a.starts it t
  if shifting.isEmpty then reduces
  else if reduces.isEmpty then [.shift false]
  else
    let rivals := shifting.filter (·.dot > 0)
    let parents := (rivals.map (·.production.lhs)).toList ++
      candidates.map (·.2.production.lhs)
    let sameRepeat := match parents with
      | [] => false
      | v :: vs => a.auxiliary.getD v false && vs.all (· == v)
    if sameRepeat then reduces ++ [.shift true]
    else
      let more := rivals.any (·.prec > top)
      let less := rivals.any (·.prec < top)
      if more && !less then [.shift false]
      else if less && !more then reduces
      else if more && less then reduces ++ [.shift false]
      else
        let sides := kept.map (·.2.assoc)
        if sides.all (· == some .left) then reduces
        else if sides.all (· == some .right) then [.shift false]
        else reduces ++ [.shift false]

end Automaton
end SourceAudit.Grammar
