import SourceAudit.Grammar.Grouping

/-!
The table of an automaton: a row for each group of states.
-/

namespace SourceAudit.Grammar

/-- A state by its number in a table. -/
structure State where
  number : Nat
  deriving BEq, DecidableEq, Inhabited

/-- The state of error recovery. -/
def State.recovery : State := ⟨0⟩

def State.start : State := ⟨1⟩

def State.isRecovery (s : State) : Bool := s == .recovery

/-- What a table knows of a state. -/
structure TableRow where
  kernel : Kernel
  /-- The tokens for which the state has an action, extras apart. -/
  valid : TokenSet
  /-- The tokens whose last action is to read them. -/
  shifted : TokenSet
  /-- For each symbol number the state after reading the symbol. -/
  targets : Array State
  /-- The tokens that the lexer looks for; more than those that are valid. -/
  sought : TokenSet := .empty
  deriving Inhabited

structure Table where
  automaton : Automaton
  rows : Array TableRow
  deriving Inhabited

/-- The kernel with the look-ahead of both. -/
def joinKernels (k l : Kernel) : Kernel :=
  ⟨k.seeds.zipWith (fun s t => ⟨s.item, s.lookahead.union t.lookahead⟩) l.seeds⟩

/-- The row of a group of states. -/
def Automaton.rowOf (a : Automaton) (full : Array FullState) (groupOf members : Array Nat) :
    TableRow :=
  let state (i : Nat) : FullState := full.getD i default
  let first := state (members.getD 0 0)
  let kernel := members.foldl (fun k i => joinKernels k (state i).kernel) first.kernel
  { kernel := kernel, valid := a.validTokens kernel, shifted := first.shifted
    targets := first.targets.foldl (fun row (x, n) => row.set! x ⟨groupOf.getD n 0⟩)
      (Array.replicate (a.tokenCount + a.variableCount) .recovery) }

/-! ### States that are passed over -/

/-- The variable that a state makes of its last symbol, if it does nothing else and that leaves no
trace: `plain` says of which variables it leaves none. -/
def Automaton.soleUnit? (a : Automaton) (plain : Item → Bool) (r : TableRow) : Option Nat :=
  if r.kernel.seeds.isEmpty || r.kernel.seeds.any fun s => (a.item s.item).next.isSome then none
  else
    let units := r.valid.toList.map fun t =>
      match a.actions r.kernel t with
      | [.reduce i] =>
        let it := a.item i
        if it.dot == 1 && it.production.dynamic == 0 && plain it then some it.production.lhs else none
      | _ => none
    match units with
    | some v :: rest => if rest.all (· == some v) then some v else none
    | _ => none

/-- Replaces a target that only makes a variable by the target of that variable. -/
def passOver (tokenCount : Nat) (units : Array (Option Nat)) (targets : Array State) :
    Nat → State → State
  | 0, s => s
  | fuel + 1, s =>
    match units.getD s.number none with
    | none => s
    | some v => passOver tokenCount units targets fuel (targets.getD (tokenCount + v) s)

/-! ### What the lexer looks for -/

/-- What decides whether two sets of tokens can be looked for together. -/
structure Separability where
  /-- For each token, those with which it must not be looked for together. -/
  rivals : Array TokenSet
  /-- For each token, those that are a part of it, or of which it is a part. -/
  overlaps : Array TokenSet
  /-- For each token, those that are valid together with it in some state. -/
  coincident : Array TokenSet
  deriving Inhabited

namespace Separability

/-- Whether a token of `new` must not be looked for together with those of `old`. -/
def refuses (p : Separability) (new old : TokenSet) : Bool :=
  new.toList.any fun t =>
    !((p.rivals.getD t .empty).inter old).isEmpty ||
      !(((p.overlaps.getD t .empty).diff (p.coincident.getD t .empty)).inter old).isEmpty

def compatible (p : Separability) (a b : TokenSet) : Bool :=
  !p.refuses (a.diff b) b && !p.refuses (b.diff a) a

/-- Adds a set to the first one that allows it; returns the place of that one. -/
def place (p : Separability) (sets : Array TokenSet) (new : TokenSet) : Array TokenSet × Nat :=
  match sets.findIdx? fun old => p.compatible old new with
  | some i => (sets.modify i (·.union new), i)
  | none => (sets.push new, sets.size)

end Separability

/-- For each token, those that are valid together with it in some state. -/
def coincidence (tokenCount : Nat) (extras : TokenSet) (full : Array FullState) : Array TokenSet :=
  full.foldl (fun acc s =>
    let valid := s.valid.union extras
    valid.toList.foldl (fun acc t => acc.modify t (·.union valid)) acc)
    (Array.replicate tokenCount TokenSet.empty)

/-- Number of symbols for which a row has an entry. -/
def TableRow.size (tokenCount : Nat) (r : TableRow) : Nat :=
  r.valid.toList.length +
    ((r.targets.extract tokenCount r.targets.size).filter fun s => !s.isRecovery).size

/-- Which rows are the target of another one. -/
def usedRows (tokenCount : Nat) (rows : Array TableRow) : Array Bool :=
  rows.foldl (fun used r =>
    (Array.range r.targets.size).foldl (fun used x =>
      if x < tokenCount && !r.shifted.contains x then used
      else used.set! (r.targets.getD x .recovery).number true) used)
    (((Array.replicate rows.size false).set! 0 true).set! 1 true)

/-- The numbers of the used rows: recovery and start first, all others from the largest to the
smallest. -/
def rowOrder (tokenCount : Nat) (rows : Array TableRow) : List Nat :=
  let used := usedRows tokenCount rows
  let rest := ((List.range rows.size).drop 2).filter fun i => used.getD i false
  let sized := rest.map fun i => ((rows.getD i default).size tokenCount, i)
  0 :: 1 :: (sized.mergeSort fun a b => a.1 ≥ b.1).map (·.2)

/-- Gives every used row the tokens that the lexer looks for: sets that do not disturb each other
are put together. `lexical` says what is looked for to find a set of valid tokens. -/
def withSought (tokenCount : Nat) (p : Separability) (lexical : TokenSet → TokenSet)
    (recovery : TokenSet) (rows : Array TableRow) : Array TableRow :=
  let wanted (i : Nat) : TokenSet :=
    if i == 0 then recovery else lexical (rows.getD i default).valid
  let (sets, places) := (rowOrder tokenCount rows).foldl (fun (sets, places) i =>
    let (sets, n) := p.place sets (wanted i)
    (sets, places.push (i, n))) (#[], (#[] : Array (Nat × Nat)))
  places.foldl (fun rows (i, n) =>
    rows.modify i fun r => { r with sought := sets.getD n .empty }) rows

/-! ### The table -/

/-- What a table is made from, besides the automaton. -/
structure TableSpec where
  /-- The symbol numbers in the order in which the states after them are numbered. -/
  order : Array Nat
  mergeability : Mergeability
  /-- Whether a reduction of one symbol leaves no trace in the tree. -/
  plain : Item → Bool
  extras : TokenSet
  rivals : Array TokenSet
  overlaps : Array TokenSet
  lexical : TokenSet → TokenSet
  recovery : TokenSet

namespace Table

def build (a : Automaton) (spec : TableSpec) : Table :=
  let full := a.fullStates spec.order
  let g := a.grouping spec.mergeability full
  let rows := g.groups.map (a.rowOf full g.groupOf)
  let units := rows.map (a.soleUnit? spec.plain)
  let rows := rows.map fun r =>
    { r with targets := r.targets.map (passOver a.tokenCount units r.targets 16) }
  let p : Separability :=
    ⟨spec.rivals, spec.overlaps, coincidence a.tokenCount spec.extras full⟩
  ⟨a, withSought a.tokenCount p spec.lexical spec.recovery rows⟩

variable (t : Table)

def row (s : State) : TableRow := t.rows.getD s.number default

/-- The state after reading a symbol. -/
def goto (s : State) (x : Symbol) : State :=
  (t.row s).targets.getD (symbolNumber t.automaton.tokenCount x) .recovery

/-- The actions of a state for a token. -/
def actions (s : State) (token : Nat) : List Action := t.automaton.actions (t.row s).kernel token

end Table
end SourceAudit.Grammar
