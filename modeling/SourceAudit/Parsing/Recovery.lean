import SourceAudit.Parsing.Machine

/-!
Recovery from errors. A version that has no action for its token either goes on as if one token
stood before it, or returns to an earlier state that has an action for it, or skips it; the costs
decide which of these prevails.
-/

namespace SourceAudit.Parsing

open SourceAudit.Grammar SourceAudit.Language

namespace Machine

/-- The reductions open to a state for any of the given tokens, and whether one of them can be read. -/
def openReductions (st : State) (tokens : List Nat) : List Reduction × Bool :=
  tokens.foldl (fun acc t =>
    (actionsFor st t).foldl (fun (rs, canShift) a =>
      match a with
      | .shift repetition => (rs, canShift || !repetition)
      | .recover => (rs, true)
      | .reduce i =>
        let r := Reduction.ofItem i
        if r.count == 0 || rs.any fun q => q.lhs == r.lhs && q.count == r.count then (rs, canShift)
        else (rs ++ [r], canShift)
      | .shiftExtra | .accept => (rs, canShift)) acc) ([], false)

/-- The first version from `first` on that stands before `v` and with which it can be merged. -/
def earlierTarget? (s : Stack) (first v : Nat) : Option Nat :=
  ((List.range v).drop first).find? fun w => s.canMerge w v

/-- Performs all reductions that are possible for `lookahead`, or for any token if there is none,
starting with version `v`. `count` is the number of versions at the beginning, `rounds` the number
of turns taken. Returns whether some version can read the token. -/
def reduceAll (initial start : Nat) (lookahead : Option Nat) :
    Nat → Machine → Nat → Nat → Bool → Machine × Bool
  | 0, m, _, _, can => (m, can)
  | fuel + 1, m, v, rounds, can =>
    let count := m.stack.versionCount
    if v ≥ count then (m, can)
    else
      match earlierTarget? m.stack initial v with
      | some w =>
        reduceAll initial start lookahead fuel { m with stack := m.stack.merge w v } v (rounds + 1)
          can
      | none =>
        let tokens := match lookahead with
          | some t => [t]
          | none => (List.range lexicon.size).drop 1
        let (rs, canShift) := openReductions (m.stack.state v) tokens
        let (m, made) := rs.foldl (fun (m, _) r => m.reduce v r) (m, none)
        let next := if v == start then count else v + 1
        if canShift then reduceAll initial start lookahead fuel m next (rounds + 1) true
        else
          match made with
          | some w =>
            if rounds < maxVersions then
              reduceAll initial start lookahead fuel { m with stack := m.stack.renumber w v } v
                (rounds + 1) can
            else if lookahead.isSome then
              reduceAll initial start lookahead fuel { m with stack := m.stack.removeVersion v }
                next (rounds + 1) can
            else reduceAll initial start lookahead fuel m next (rounds + 1) can
          | none =>
            if lookahead.isSome then
              reduceAll initial start lookahead fuel { m with stack := m.stack.removeVersion v }
                next (rounds + 1) can
            else reduceAll initial start lookahead fuel m next (rounds + 1) can

/-- All reductions for a token; the end of the text, which nothing follows, stands for any token. -/
def allReductions (m : Machine) (v : Nat) (lookahead : Option Nat) : Machine × Bool :=
  reduceAll m.stack.versionCount v (lookahead.filter (· != endToken)) 200 m v 0 false

/-! ### Returning to an earlier state -/

/-- Wraps the trees of a slice, with an error below them, into one error on the landing state. -/
def landSlice (src : Source) (goal : State) (s : Stack) (sl : Stack.Slice) : Stack :=
  let (s, below) := s.popError sl.version
  let trees := match below with
    | some e => e.children ++ sl.trees
    | none => sl.trees
  let (children, extras) := Tree.splitTrailingExtras trees
  let s :=
    if children.isEmpty then s
    else s.push sl.version (some ((Tree.make src .error #[] 0 children).setExtra true)) goal
  extras.foldl (fun s t => s.push sl.version (some t) goal) s

/-- Goes back `depth` trees to the state `goal`, along the first way that leads there. -/
def landOn (m : Machine) (v depth : Nat) (goal : State) : Machine × Bool :=
  let (s, slices) := m.stack.pop v depth
  let (s, landed, _) := slices.foldl (fun (s, landed, previous) sl =>
    if previous == some sl.version then (s, landed, previous)
    else if s.state sl.version != goal then (s.halt sl.version, landed, previous)
    else (landSlice m.src goal s sl, true, some sl.version)) (s, false, (none : Option Nat))
  ({ m with stack := s }, landed)

/-- Tries the remembered states from the top down; the first that has an action for the token is
taken, unless another version is already better off. -/
def tryLandings (m : Machine) (v : Nat) (token : Nat) (deeper : Bool) (cost versions : Nat) :
    List Landing → Machine × Bool
  | [] => (m, false)
  | l :: rest =>
    let position := m.stack.position v
    if l.state.isRecovery || l.position == position then
      tryLandings m v token deeper cost versions rest
    else
      let depth := if deeper then l.depth + 1 else l.depth
      let redundant := (List.range versions).any fun w =>
        m.stack.state w == l.state && m.stack.position w == position
      if redundant then tryLandings m v token deeper cost versions rest
      else
        let newCost := cost + skippedTreeCost * l.depth +
          skippedCharCost * m.src.byteLength l.position position +
          skippedLineCost * m.src.rowCount l.position position
        if m.betterExists v false newCost then (m, false)
        else if hasActions l.state token then
          let (m', landed) := m.landOn v depth l.state
          if landed then (m', true) else tryLandings m' v token deeper cost versions rest
        else tryLandings m v token deeper cost versions rest

/-- Removes the versions from `first` on that are not active. -/
def dropInactive (s : Stack) (first : Nat) : Stack :=
  { s with heads := s.heads.extract 0 first ++
      (s.heads.extract first s.heads.size).filter Head.isActive }

/-- Puts the token, together with an error already on top, into one growing error. -/
def skipToken (m : Machine) (v : Nat) (lookahead : Tree) (growing : Bool) : Machine :=
  let extra := (tokenOf? lookahead).elim false extraTokens.contains
  let lookahead := if extra then lookahead.setExtra true else lookahead
  let part := Tree.make m.src .errorPart #[] lookahead.info.lead #[lookahead]
  let (s, part) :=
    if growing then
      let (s, slices) := m.stack.pop v 1
      match slices with
      | [] => (m.stack, part)
      | sl :: _ =>
        let s := { s with heads := s.heads.extract 0 (sl.version + 1) }
        (s.renumber sl.version v, Tree.make m.src .errorPart #[] 0 (sl.trees.push part))
    else (m.stack, part)
  let s := s.push v (some part) .recovery
  { m with stack := rememberLayout s v lookahead }

/-- Continues the recovery of version `v` at the given token. -/
def recover (m : Machine) (v : Nat) (lookahead : Tree) : Machine :=
  let m := { m with stack := m.stack.settleCounts }
  let versions := m.stack.versionCount
  let growing := m.stack.countSinceError v > 0
  let cost := m.stack.errorCost v
  let landings := ((m.stack.head v).landings.getD #[]).toList
  let (m, landed) := match tokenOf? lookahead with
    | none => (m, false)
    | some t => m.tryLandings v t growing cost versions landings
  let m := { m with stack := dropInactive m.stack versions }
  if landed && (m.stack.versionCount > maxVersions || lookahead.info.layoutChanged) then
    { m with stack := m.stack.halt v }
  else if tokenOf? lookahead == some endToken then
    let wrapper := Tree.make m.src .error #[] (m.stack.position v) #[]
    let m := { m with stack := m.stack.push v (some wrapper) .recovery }
    m.accept v lookahead
  else
    let i := lookahead.info
    let newCost := cost + skippedTreeCost + skippedCharCost * m.src.byteLength i.lead i.stop +
      skippedLineCost * m.src.rowCount i.lead i.stop
    if m.betterExists v false newCost then { m with stack := m.stack.halt v }
    else m.skipToken v lookahead growing

/-! ### Entering recovery -/

/-- Tries to go on as if a token stood before `lookahead`: the first token after which a reduction
for `lookahead` leads to a version that can read it. -/
def insertMissing (m : Machine) (v place : Nat) (lookahead : Nat) : List Nat → Machine × Bool
  | [] => (m, false)
  | t :: rest =>
    let st := m.stack.state v
    match stateAfter? st t with
    | none => insertMissing m v place lookahead rest
    | some next =>
      if next == st || !reducesFirst next lookahead then insertMissing m v place lookahead rest
      else
        let (s, w) := m.stack.copyVersion v
        let s := s.push w (some (Tree.missingLeaf t place)) next
        let (m', can) := allReductions { m with stack := s } w (some lookahead)
        if can then (m', true) else insertMissing m' v place lookahead rest

/-- Marks the point of the error on each of the given versions, after trying to insert a token. -/
def enterError (place : Nat) (lookahead : Option Nat) (m : Machine) (inserted : Bool) :
    List Nat → Machine
  | [] => m
  | v :: rest =>
    let (m, inserted) := match lookahead with
      | some t =>
        if inserted then (m, inserted)
        else m.insertMissing v place t ((List.range lexicon.size).drop 1)
      | none => (m, inserted)
    enterError place lookahead { m with stack := m.stack.push v none .recovery } inserted rest

/-- Begins the recovery of version `v`, which has no action for the token. -/
def handleError (m : Machine) (v : Nat) (lookahead : Tree) : Machine :=
  let before := m.stack.versionCount
  let (m, _) := m.allReductions v none
  let after := m.stack.versionCount
  let place := m.stack.position v
  let m := enterError place (tokenOf? lookahead) m false
    (v :: (List.range after).drop before)
  let s := (List.range (after - before)).foldl (fun s _ =>
    if s.canMerge v before then s.merge v before else s) m.stack
  recover { m with stack := s.recordLandings v } v lookahead

end Machine
end SourceAudit.Parsing
