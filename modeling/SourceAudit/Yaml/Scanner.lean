import SourceAudit.Yaml.Property

/-!
The tokens of a YAML text. Where blocks begin and end is seen from the columns. A key that is not
marked as such is known only when the colon after it is found; the tokens for it are then put before
those of the key.
-/

namespace SourceAudit.Yaml

/-- A place where a key may have begun. -/
structure PendingKey where
  /-- Only a key can stand there. -/
  required : Bool
  /-- Number of tokens before it. -/
  tokensBefore : Nat
  index : Nat
  line : Nat
  column : Nat

/-- Greatest length of a key that is not marked. -/
def maxKeyLength : Nat := 1024

structure Scanner where
  cursor : Cursor
  tokens : Array Token := #[]
  /-- Column of the current block; absent at the top. -/
  indent : Option Nat := none
  /-- Columns of the blocks around it. -/
  outer : List (Option Nat) := []
  /-- A key without a mark may begin here. -/
  keyAllowed : Bool := true
  /-- The pending key of the innermost collection. -/
  key : Option PendingKey := none
  /-- The pending keys around the flow collections that are open. -/
  outerKeys : List (Option PendingKey) := []

namespace Scanner

def inFlow (s : Scanner) : Bool := !s.outerKeys.isEmpty

def push (s : Scanner) (t : Token) : Scanner := { s with tokens := s.tokens.push t }

/-- Adds a token of `n` characters. -/
def pushAdvance (s : Scanner) (t : Token) (n : Nat) : Scanner :=
  { s with tokens := s.tokens.push t, cursor := s.cursor.advance n }

/-- Whether a block at column `a` lies inside one at column `b`. -/
def deeper (a b : Option Nat) : Bool :=
  match a, b with
  | none, _ => false
  | some _, none => true
  | some m, some n => n < m

/-- Begins a block at a column, if it is deeper than the current one. The token is put in after the
given number of tokens. -/
def openBlock (s : Scanner) (column tokensBefore : Nat) (t : Token) : Scanner :=
  if s.inFlow || !deeper (some column) s.indent then s
  else
    { s with
      indent := some column
      outer := s.indent :: s.outer
      tokens := s.tokens.insertIdxIfInBounds tokensBefore t }

/-- Ends the blocks that are deeper than the given column. -/
def closeBlocks (s : Scanner) (column : Option Nat) : Scanner :=
  if s.inFlow then s else go s.indent s.outer s.tokens
where
  go (indent : Option Nat) : List (Option Nat) → Array Token → Scanner
    | [], tokens => { s with indent, outer := [], tokens }
    | next :: outer, tokens =>
      if deeper indent column then go next outer (tokens.push .blockEnd)
      else { s with indent, outer := next :: outer, tokens }

/-- Gives up the pending key; none if a key is required there. -/
def dropKey? (s : Scanner) : Option Scanner :=
  match s.key with
  | some k => if k.required then none else some { s with key := none }
  | none => some s

/-- Notes that a key may begin here. -/
def saveKey? (s : Scanner) : Option Scanner :=
  if s.keyAllowed then
    match s.dropKey? with
    | none => none
    | some s =>
      let c := s.cursor
      some { s with
        key := some { required := !s.inFlow && s.indent = some c.column
                      tokensBefore := s.tokens.size
                      index := c.index, line := c.line, column := c.column } }
  else some s

/-- A key may not go beyond its line or its greatest length. -/
def keyIsStale (c : Cursor) (k : PendingKey) : Bool :=
  k.line < c.line || k.index + maxKeyLength < c.index

/-- The pending key unless it is stale; none if a stale one is required. -/
def freshKey? (c : Cursor) : Option PendingKey → Option (Option PendingKey)
  | none => some none
  | some k =>
    if keyIsStale c k then (if k.required then none else some none) else some (some k)

/-- Gives up all keys that are stale. -/
def dropStaleKeys? (s : Scanner) : Option Scanner := do
  let key ← freshKey? s.cursor s.key
  let outerKeys ← s.outerKeys.mapM (freshKey? s.cursor)
  return { s with key, outerKeys }

/-- Steps over blanks, comments and line ends. -/
def skipToToken : Nat → Scanner → Scanner
  | 0, s => s
  | fuel + 1, s =>
    let c := s.cursor
    let c := if c.column = 0 && c.isAt '\ufeff' then c.advance 1 else c
    let tabs := s.inFlow || !s.keyAllowed
    let c := (c.skipWhile fun x => x = ' ' || (tabs && x = '\t')).skipComment
    if c.atBreak then
      skipToToken fuel { s with cursor := c.skipBreak, keyAllowed := s.keyAllowed || !s.inFlow }
    else { s with cursor := c }

/-! ### Single tokens -/

/-- Ends everything that is open in front of a marker at the top. -/
def leaveBlocks? (s : Scanner) : Option Scanner :=
  (s.closeBlocks none).dropKey?.map fun s => { s with keyAllowed := false }

def fetchStreamEnd? (s : Scanner) : Option Scanner := s.leaveBlocks?.map (·.push .streamEnd)

def fetchDirective? (s : Scanner) : Option Scanner := do
  let s ← s.leaveBlocks?
  let (t, cursor) ← readDirective? s.cursor
  return { s.push t with cursor }

def fetchMarker? (t : Token) (s : Scanner) : Option Scanner :=
  s.leaveBlocks?.map (·.pushAdvance t 3)

def fetchFlowStart? (t : Token) (s : Scanner) : Option Scanner :=
  s.saveKey?.map fun s =>
    { s.pushAdvance t 1 with key := none, outerKeys := s.key :: s.outerKeys, keyAllowed := true }

def fetchFlowEnd? (t : Token) (s : Scanner) : Option Scanner :=
  s.dropKey?.map fun s =>
    let s := { s.pushAdvance t 1 with keyAllowed := false }
    match s.outerKeys with
    | [] => s
    | k :: ks => { s with key := k, outerKeys := ks }

def fetchFlowEntry? (s : Scanner) : Option Scanner :=
  s.dropKey?.map fun s => { s.pushAdvance .flowEntry 1 with keyAllowed := true }

def fetchBlockEntry? (s : Scanner) : Option Scanner :=
  if !s.inFlow && !s.keyAllowed then none
  else
    (s.openBlock s.cursor.column s.tokens.size .blockSequenceStart).dropKey?.map fun s =>
      { s.pushAdvance .blockEntry 1 with keyAllowed := true }

def fetchKey? (s : Scanner) : Option Scanner :=
  if !s.inFlow && !s.keyAllowed then none
  else
    (s.openBlock s.cursor.column s.tokens.size .blockMappingStart).dropKey?.map fun s =>
      { s.pushAdvance .key 1 with keyAllowed := !s.inFlow }

def fetchValue? (s : Scanner) : Option Scanner :=
  match s.key with
  | some k =>
    let s := { s with tokens := s.tokens.insertIdxIfInBounds k.tokensBefore .key, key := none }
    let s := s.openBlock k.column k.tokensBefore .blockMappingStart
    some { s.pushAdvance .value 1 with keyAllowed := false }
  | none =>
    if !s.inFlow && !s.keyAllowed then none
    else
      let s := s.openBlock s.cursor.column s.tokens.size .blockMappingStart
      some { s.pushAdvance .value 1 with keyAllowed := !s.inFlow }

/-- A token that may be the beginning of a key. -/
def fetchKeyPart? (read : Cursor → Option (Token × Cursor)) (s : Scanner) : Option Scanner := do
  let s ← s.saveKey?
  let (t, cursor) ← read s.cursor
  return { s.push t with cursor, keyAllowed := false }

def fetchBlockScalar? (folded : Bool) (s : Scanner) : Option Scanner := do
  let s ← s.dropKey?
  let (text, cursor) ← readBlockScalar folded s.indent s.cursor
  return { s.push (.scalar (if folded then .folded else .literal) text) with
    cursor, keyAllowed := true }

def fetchQuoted? (single : Bool) (s : Scanner) : Option Scanner :=
  fetchKeyPart? (fun c => (readQuotedScalar single c).map fun (text, c) =>
    (.scalar (if single then .singleQuoted else .doubleQuoted) text, c)) s

def fetchPlain? (s : Scanner) : Option Scanner := do
  let s ← s.saveKey?
  let indent := match s.indent with
    | none => 0
    | some n => n + 1
  let (text, broken, cursor) ← readPlainScalar s.inFlow indent s.cursor
  return { s.push (.scalar .plain text) with cursor, keyAllowed := broken }

/-- Whether a plain scalar may begin here. -/
def startsPlain (s : Scanner) : Bool :=
  match s.cursor.rest with
  | [] => false
  | x :: xs =>
    let special := x ∈ ['-', '?', ':', ',', '[', ']', '\x7b', '\x7d', '#', '&', '*', '!', '|', '>',
      '\'', '"', '%', '@', '\x60']
    !(isBlank x || isBreak x || special)
      || (x = '-' && !xs.head?.any isBlank)
      || (!s.inFlow && (x = '?' || x = ':') && !Cursor.isSeparated xs)

/-- Reads the token at the cursor. -/
def fetch? (s : Scanner) : Option Scanner :=
  let c := s.cursor
  match c.head? with
  | none => s.fetchStreamEnd?
  | some x =>
    if c.column = 0 && x = '%' then s.fetchDirective?
    else if c.atDocumentMarker then
      s.fetchMarker? (if x = '-' then .documentStart else .documentEnd)
    else if x = '[' then s.fetchFlowStart? .flowSequenceStart
    else if x = '\x7b' then s.fetchFlowStart? .flowMappingStart
    else if x = ']' then s.fetchFlowEnd? .flowSequenceEnd
    else if x = '\x7d' then s.fetchFlowEnd? .flowMappingEnd
    else if x = ',' then s.fetchFlowEntry?
    else if x = '-' && c.separatorAfter 1 then s.fetchBlockEntry?
    else if x = '?' && (s.inFlow || c.separatorAfter 1) then s.fetchKey?
    else if x = ':' && (s.inFlow || c.separatorAfter 1) then s.fetchValue?
    else if x = '*' then
      s.fetchKeyPart? fun c => (readAnchorName? c).map fun (n, c) => (.reference n, c)
    else if x = '&' then
      s.fetchKeyPart? fun c => (readAnchorName? c).map fun (n, c) => (.anchor n, c)
    else if x = '!' then s.fetchKeyPart? (readTag? s.inFlow)
    else if x = '|' && !s.inFlow then s.fetchBlockScalar? false
    else if x = '>' && !s.inFlow then s.fetchBlockScalar? true
    else if x = '\'' then s.fetchQuoted? true
    else if x = '"' then s.fetchQuoted? false
    else if s.startsPlain then s.fetchPlain?
    else none

/-- Reads the next token. -/
def next? (s : Scanner) : Option Scanner :=
  let s := skipToToken (s.cursor.rest.length + 1) s
  match s.dropStaleKeys? with
  | none => none
  | some s => (s.closeBlocks (some s.cursor.column)).fetch?

/-- Reads all tokens. Every one but the last takes at least one character. -/
def run? : Nat → Scanner → Option Scanner
  | 0, _ => none
  | fuel + 1, s =>
    match s.next? with
    | none => none
    | some s => if s.tokens.back? = some .streamEnd then some s else run? fuel s

end Scanner

/-- The tokens of a text; none if it cannot be divided into tokens. -/
def tokens? (text : List Char) : Option (List Token) :=
  if text.all isPrintable then
    (Scanner.run? (text.length + 2) { cursor := { rest := text } }).map fun s => s.tokens.toList
  else none

end SourceAudit.Yaml
