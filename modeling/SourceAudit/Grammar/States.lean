import SourceAudit.Grammar.Automaton

/-!
All states of an automaton, numbered in the order in which they are reached.
-/

namespace SourceAudit.Grammar

/-- A state before states are put together. -/
structure FullState where
  kernel : Kernel
  /-- Number of its core, that is, of its kernel without the look-ahead. -/
  core : Nat
  valid : TokenSet
  finished : List Seed
  /-- Target of each symbol that can be read, in the order in which targets are numbered. -/
  targets : Array (Nat × Nat)
  /-- The tokens whose last action is to read them. -/
  shifted : TokenSet
  deriving Inhabited

/-- The kernels found so far. -/
structure Kernels where
  kernels : Array Kernel
  cores : Array Nat
  numbers : Std.HashMap Kernel Nat
  coreNumbers : Std.HashMap (Array Nat) Nat
  deriving Inhabited

namespace Kernels

def empty : Kernels := ⟨#[], #[], ∅, ∅⟩

/-- The number of a kernel; a new one gets the next number. -/
def add (ks : Kernels) (k : Kernel) : Kernels × Nat :=
  match ks.numbers[k]? with
  | some n => (ks, n)
  | none =>
    let n := ks.kernels.size
    let core := k.seeds.map (·.item)
    let (coreNumbers, c) := match ks.coreNumbers[core]? with
      | some c => (ks.coreNumbers, c)
      | none => (ks.coreNumbers.insert core ks.coreNumbers.size, ks.coreNumbers.size)
    ({ kernels := ks.kernels.push k, cores := ks.cores.push c, numbers := ks.numbers.insert k n
       coreNumbers := coreNumbers }, n)

end Kernels

def numberSymbol (tokenCount n : Nat) : Symbol :=
  if n < tokenCount then .terminal n else .variable (n - tokenCount)

/-- For each variable, the symbols that can start it, its own number included. -/
def Automaton.leadingSymbols (a : Automaton) : Array (Array Nat) :=
  a.reaches.map fun table =>
    (Array.range table.size).filter fun x => !(table.getD x #[]).isEmpty

/-- The symbols that a kernel can read, marked by their numbers. -/
def Automaton.readable (a : Automaton) (leading : Array (Array Nat)) (k : Kernel) : Array Bool :=
  k.seeds.foldl (fun marks s =>
    match (a.item s.item).next with
    | none => marks
    | some x =>
      let marks := marks.set! (symbolNumber a.tokenCount x) true
      match x with
      | .terminal _ => marks
      | .variable v => (leading.getD v #[]).foldl (fun marks y => marks.set! y true) marks)
    (Array.replicate (a.tokenCount + a.variableCount) false)

/-- The targets of a kernel, in the given order of symbols. -/
def Automaton.targets (a : Automaton) (leading : Array (Array Nat)) (order : Array Nat)
    (ks : Kernels) (k : Kernel) : Kernels × Array (Nat × Nat) :=
  let marks := a.readable leading k
  order.foldl (fun (ks, out) x =>
    if marks.getD x false then
      let (ks, n) := ks.add (a.goto k (numberSymbol a.tokenCount x))
      (ks, out.push (x, n))
    else (ks, out)) (ks, #[])

/-- The tokens whose last action is to read them. Only those that a finished item competes for need
a closer look. -/
def Automaton.shiftedTokens (a : Automaton) (k : Kernel) (finished : List Seed)
    (targets : Array (Nat × Nat)) : TokenSet :=
  let contested := finished.foldl (fun acc s => acc.union s.lookahead) TokenSet.empty
  targets.foldl (fun acc (x, _) =>
    if x < a.tokenCount then
      if contested.contains x then
        match (a.actions k x).getLast? with
        | some (.shift _) => acc.insert x
        | _ => acc
      else acc.insert x
    else acc) TokenSet.empty

/-- Goes through the kernels in the order of their numbers; each may bring further ones. -/
def Automaton.explore (a : Automaton) (leading : Array (Array Nat)) (order : Array Nat) :
    Nat → Kernels → Array FullState → Array FullState
  | 0, _, out => out
  | fuel + 1, ks, out =>
    match ks.kernels[out.size]? with
    | none => out
    | some k =>
      let core := ks.cores.getD out.size 0
      let (ks, targets) := a.targets leading order ks k
      let finished := a.finished k
      let st : FullState :=
        { kernel := k, core := core, valid := a.validTokens k, finished := finished
          targets := targets, shifted := a.shiftedTokens k finished targets }
      a.explore leading order fuel ks (out.push st)

/-- Bound on the number of states. -/
def maxStates : Nat := 20000

/-- All states. The first is the state of recovery and the second the start. -/
def Automaton.fullStates (a : Automaton) (order : Array Nat) : Array FullState :=
  a.explore a.leadingSymbols order maxStates
    ((((Kernels.empty).add ⟨#[]⟩).1).add a.start).1 #[]

end SourceAudit.Grammar
