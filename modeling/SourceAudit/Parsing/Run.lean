import SourceAudit.Parsing.Recovery

/-!
The parser's main loop: every version is advanced to the next token, then the versions are compared
and the worse ones dropped, until the text has been read.
-/

namespace SourceAudit.Parsing

open SourceAudit.Grammar SourceAudit.Language

namespace Machine

/-- The next token for version `v`. -/
def nextToken (m : Machine) (v : Nat) : Tree :=
  let st := m.stack.state v
  LexContext.next
    { src := m.src, valid := validTokens st, sought := (table.row st).sought
      recovering := st.isRecovery
      advanced := m.stack.advancedSinceError v, layout := (m.stack.head v).layout
      position := m.stack.position v }

/-- What came of the actions for one token. -/
inductive Progress where
  /-- The token was dealt with. -/
  | done (m : Machine)
  /-- Only reductions were made; the number of the last version they left, if any. -/
  | reduced (m : Machine) (made : Option Nat)

/-- Performs the actions in order, up to the first one that uses the token. -/
def perform (v : Nat) (st : State) (token : Nat) (lookahead : Tree) :
    List Action → Machine → Option Nat → Progress
  | [], m, made => .reduced m made
  | .shift true :: rest, m, made => perform v st token lookahead rest m made
  | .shift false :: _, m, _ =>
    .done (m.shift v (table.goto st (.terminal token)) lookahead false)
  | .shiftExtra :: _, m, _ => .done (m.shift v st lookahead true)
  | .reduce i :: rest, m, made =>
    let (m, new) := m.reduce v (.ofItem i)
    perform v st token lookahead rest m (new <|> made)
  | .accept :: _, m, _ => .done (m.accept v lookahead)
  | .recover :: _, m, _ => .done (m.recover v lookahead)

/-- The leaf as an identifier, if it is a keyword that the state can only use as one. -/
def asIdentifier? (st : State) (lookahead : Tree) : Option Tree :=
  if lookahead.info.keyword && lookahead.info.label != .token identifierToken &&
      hasActions st identifierToken then
    some (lookahead.withInfo ({ · with label := .token identifierToken }))
  else none

/-- Advances version `v` over the token `lookahead`: reductions first, then the shift. A version that
has no action is paused. -/
def advanceOver (v : Nat) : Nat → Machine → Tree → Machine
  | 0, m, _ => { m with stack := m.stack.halt v }
  | fuel + 1, m, lookahead =>
    let st := m.stack.state v
    let progress := match tokenOf? lookahead with
      | none => Progress.reduced m none
      | some t => perform v st t lookahead (actionsFor st t) m none
    match progress with
    | .done m => m
    | .reduced m (some w) =>
      advanceOver v fuel { m with stack := m.stack.renumber w v } lookahead
    | .reduced m none =>
      match asIdentifier? st lookahead with
      | some leaf => advanceOver v fuel m leaf
      | none =>
        if st.isRecovery then m.recover v lookahead
        else { m with stack := m.stack.pause v lookahead }

/-- Bound on the reductions before one token. -/
def reductionFuel (m : Machine) : Nat := 1000 + 20 * m.stack.nodes.size

def advance (m : Machine) (v : Nat) : Machine :=
  advanceOver v m.reductionFuel m (m.nextToken v)

/-- Advances version `v` until it has passed `last` (or, if it is not the first one, reached it). -/
def advanceFar (v last : Nat) : Nat → Machine → Machine × Nat
  | 0, m => (m, last)
  | fuel + 1, m =>
    if v < m.stack.versionCount && (m.stack.head v).isActive then
      let m := m.advance v
      let position := m.stack.position v
      if position > last || (v > 0 && position == last) then (m, position)
      else advanceFar v last fuel m
    else (m, last)

/-- Advances all versions, those that come into being on the way included. -/
def advanceAll : Nat → Machine → Nat → Nat → Machine × Nat
  | 0, m, _, last => (m, last)
  | fuel + 1, m, v, last =>
    if v < m.stack.versionCount then
      let (m, last) := advanceFar v last (4 * m.src.chars.size + 64) m
      advanceAll fuel m (v + 1) last
    else (m, last)

/-! ### Condensing -/

/-- Compares version `i` with those from `j` up to it. Returns the number of the next version to look
at. `mine` is the standing of version `i` when the comparison began. -/
def compareWith (mine : Standing) : Nat → Stack → Nat → Nat → Stack × Nat
  | 0, s, i, _ => (s, i + 1)
  | fuel + 1, s, i, j =>
    if j ≥ i then (s, i + 1)
    else
      match (s.standing j).compare mine with
      | .takeLeft => (s.removeVersion i, i)
      | .preferLeft | .none =>
        if s.canMerge j i then (s.merge j i, i) else compareWith mine fuel s i (j + 1)
      | .preferRight =>
        if s.canMerge j i then (s.merge j i, i)
        else compareWith mine fuel (s.swapVersions i j) i (j + 1)
      | .takeRight => compareWith mine fuel (s.removeVersion j) (i - 1) j

/-- Drops halted versions and those clearly worse than another, and orders the rest. Returns the
least cost of a version that is not in error. -/
def sortVersions : Nat → Stack → Nat → Option Nat → Stack × Option Nat
  | 0, s, _, least => (s, least)
  | fuel + 1, s, i, least =>
    if i ≥ s.versionCount then (s, least)
    else if (s.head i).isHalted then sortVersions fuel (s.removeVersion i) i least
    else
      let mine := s.standing i
      let least :=
        if mine.inError then least
        else some (least.elim mine.cost (min mine.cost))
      let (s, next) := compareWith mine (2 * s.versionCount + 2) s i 0
      sortVersions fuel s next least

/-- Begins recovery of the best version if it is paused, and drops all other paused ones. -/
def resumePaused : Nat → Machine → Nat → Nat → Bool → Option Nat → Machine × Option Nat
  | 0, m, _, _, _, least => (m, least)
  | fuel + 1, m, i, n, running, least =>
    if i ≥ n then (m, least)
    else
      match (m.stack.head i).status with
      | .paused lookahead =>
        if !running && m.acceptCount < maxVersions then
          let least := some (m.stack.errorCost i)
          let s := m.stack.modifyHead i ({ · with status := .active })
          resumePaused fuel (handleError { m with stack := s } i lookahead) (i + 1) n true least
        else
          resumePaused fuel { m with stack := m.stack.removeVersion i } i (n - 1) running least
      | _ => resumePaused fuel m (i + 1) n true least

def condense (m : Machine) : Machine × Option Nat :=
  let s := m.stack.settleCounts
  let (s, least) := sortVersions (2 * s.versionCount + 4) s 0 none
  let s := { s with heads := s.heads.extract 0 maxVersions }
  resumePaused (s.versionCount + 1) { m with stack := s } 0 s.versionCount false least

/-! ### The loop -/

/-- Advances and condenses until no version is left, or the finished tree is better than all of them. -/
def loop : Nat → Machine → Nat → Option Tree
  | 0, m, _ => m.finished
  | fuel + 1, m, last =>
    let (m, last) := advanceAll 64 m 0 last
    let count := m.stack.versionCount
    let (m, least) := m.condense
    let settled := match m.finished with
      | none => false
      | some t => least.elim true (t.info.cost < ·)
    if settled || count == 0 then m.finished else loop fuel m last

end Machine

/-- The tree of a text. -/
def parseChars (cs : List Char) : Source × Option Tree :=
  let src := Source.ofChars cs
  (src, Machine.loop (16 * src.chars.size + 64) { src := src, stack := .initial .start } 0)

end SourceAudit.Parsing
