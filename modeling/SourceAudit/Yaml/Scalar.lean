import SourceAudit.Yaml.Cursor

/-!
Scalars of a YAML text: plain, quoted, and blocks. Each function reads one scalar from a place and
returns its text and the place after it.
-/

namespace SourceAudit.Yaml

/-! ### Blanks between words -/

/-- Blanks and breaks between two words of a scalar. -/
structure Gap where
  /-- Blanks on the line of the first word. -/
  blanks : List Char := []
  /-- The first break. -/
  leading : List Char := []
  /-- The further breaks. -/
  trailing : List Char := []
  /-- A break has been read. -/
  broken : Bool := false
  deriving Inhabited

/-- What a gap is in the text of the scalar: one break is a blank, of several the first is left
out. -/
def Gap.fold (g : Gap) : List Char :=
  if g.broken then
    if g.leading.head? = some '\n' then
      if g.trailing.isEmpty then [' '] else g.trailing
    else g.leading ++ g.trailing
  else g.blanks

/-- Reads a gap. A tab in the indentation of a line, left of `indent`, is refused. -/
def readGap (indent : Nat) : Nat → Gap → Cursor → Option (Gap × Cursor)
  | 0, g, c => some (g, c)
  | fuel + 1, g, c =>
    match c.head? with
    | none => some (g, c)
    | some x =>
      if isBlank x then
        if g.broken then
          if x = '\t' && c.column < indent then none
          else readGap indent fuel g (c.advance 1)
        else readGap indent fuel { g with blanks := g.blanks ++ [x] } (c.advance 1)
      else if isBreak x then
        let (b, c) := c.takeBreak
        if g.broken then readGap indent fuel { g with trailing := g.trailing ++ b } c
        else readGap indent fuel { blanks := [], leading := b, trailing := [], broken := true } c
      else some (g, c)

/-! ### Plain scalars -/

def isFlowIndicator (x : Char) : Bool :=
  x = ',' || x = '[' || x = ']' || x = '\x7b' || x = '\x7d'

/-- Reads the characters of a word of a plain scalar; `done` holds those read, nearest first. In
a flow collection a colon may not stand right before an indicator. -/
def readPlainWord (inFlow : Bool) (done : List Char) : List Char → Option (List Char)
  | [] => some done.reverse
  | x :: xs =>
    if isBlank x || isBreak x then some done.reverse
    else if inFlow && x = ':' && xs.head?.any (fun y => isFlowIndicator y || y = '?') then none
    else if x = ':' && Cursor.isSeparated xs then some done.reverse
    else if inFlow && isFlowIndicator x then some done.reverse
    else readPlainWord inFlow (x :: done) xs

/-- Reads the words of a plain scalar whose text so far is `text`, after the given gap. Returns also
whether a break comes after the last word. -/
def readPlain (inFlow : Bool) (indent : Nat) :
    Nat → List Char → Gap → Cursor → Option (List Char × Bool × Cursor)
  | 0, _, _, _ => none
  | fuel + 1, text, gap, c =>
    if c.atDocumentMarker || c.isAt '#' then some (text, gap.broken, c)
    else
      match readPlainWord inFlow [] c.rest with
      | none => none
      | some word =>
        let text := if word.isEmpty then text else text ++ (gap.fold ++ word)
        let gap := if word.isEmpty then gap else {}
        let c := c.advance word.length
        if !(c.atBlank || c.atBreak) then some (text, gap.broken, c)
        else
          match readGap indent (c.rest.length + 1) gap c with
          | none => none
          | some (gap, c) =>
            if !inFlow && c.column < indent then some (text, gap.broken, c)
            else readPlain inFlow indent fuel text gap c

/-- Reads a plain scalar inside a block of the given indentation. -/
def readPlainScalar (inFlow : Bool) (indent : Nat) (c : Cursor) :
    Option (List Char × Bool × Cursor) :=
  readPlain inFlow indent (c.rest.length + 2) [] {} c

/-! ### Quoted scalars -/

def hexValue? (x : Char) : Option Nat :=
  if '0' ≤ x && x ≤ '9' then some (x.toNat - '0'.toNat)
  else if 'a' ≤ x && x ≤ 'f' then some (x.toNat - 'a'.toNat + 10)
  else if 'A' ≤ x && x ≤ 'F' then some (x.toNat - 'A'.toNat + 10)
  else none

/-- The character with a code of `width` hexadecimal digits at the front of a text. -/
def readCode? (width : Nat) (cs : List Char) : Option Char :=
  let digits := (cs.take width).filterMap hexValue?
  if digits.length < width then none
  else
    let n := digits.foldl (fun n d => n * 16 + d) 0
    if (0xD800 ≤ n && n ≤ 0xDFFF) || n > 0x10FFFF then none else some (Char.ofNat n)

/-- The character of an escape by one letter. -/
def simpleEscape? : Char → Option Char
  | '0' => some '\x00'
  | 'a' => some '\x07'
  | 'b' => some '\x08'
  | 't' => some '\t'
  | '\t' => some '\t'
  | 'n' => some '\n'
  | 'v' => some '\x0b'
  | 'f' => some '\x0c'
  | 'r' => some '\r'
  | 'e' => some '\x1b'
  | ' ' => some ' '
  | '"' => some '"'
  | '/' => some '/'
  | '\\' => some '\\'
  | 'N' => some '\u0085'
  | '_' => some '\u00a0'
  | 'L' => some '\u2028'
  | 'P' => some '\u2029'
  | _ => none

/-- Number of hexadecimal digits of an escape by code. -/
def codeWidth? : Char → Option Nat
  | 'x' => some 2
  | 'u' => some 4
  | 'U' => some 8
  | _ => none

/-- The character of an escape, after its backslash, and the length of the escape. -/
def readEscape? (cs : List Char) : Option (Char × Nat) :=
  match cs with
  | [] => none
  | x :: xs =>
    match codeWidth? x with
    | some w => (readCode? w xs).map fun y => (y, w + 1)
    | none => (simpleEscape? x).map fun y => (y, 1)

/-- Reads a word of a quoted scalar. Returns its text, the place after it, and whether a break that
is escaped ends it. -/
def readQuotedWord (single : Bool) :
    Nat → List Char → Cursor → Option (List Char × Cursor × Bool)
  | 0, _, _ => none
  | fuel + 1, done, c =>
    match c.rest with
    | [] => some (done.reverse, c, false)
    | x :: xs =>
      if isBlank x || isBreak x then some (done.reverse, c, false)
      else if single && x = '\'' && xs.head? = some '\'' then
        readQuotedWord single fuel ('\'' :: done) (c.advance 2)
      else if x = (if single then '\'' else '"') then some (done.reverse, c, false)
      else if !single && x = '\\' then
        if xs.head?.any isBreak then some (done.reverse, (c.advance 1).skipBreak, true)
        else
          match readEscape? xs with
          | none => none
          | some (y, n) => readQuotedWord single fuel (y :: done) (c.advance (n + 1))
      else readQuotedWord single fuel (x :: done) (c.advance 1)

/-- Reads a quoted scalar after its opening quote. -/
def readQuoted (single : Bool) : Nat → List Char → Cursor → Option (List Char × Cursor)
  | 0, _, _ => none
  | fuel + 1, text, c =>
    if c.atDocumentMarker || c.atEnd then none
    else
      match readQuotedWord single (c.rest.length + 1) [] c with
      | none => none
      | some (word, c, escapedBreak) =>
        let text := text ++ word
        if c.isAt (if single then '\'' else '"') then some (text, c.advance 1)
        else
          match readGap 0 (c.rest.length + 1) { broken := escapedBreak } c with
          | none => none
          | some (gap, c) => readQuoted single fuel (text ++ gap.fold) c

/-- Reads a quoted scalar. -/
def readQuotedScalar (single : Bool) (c : Cursor) : Option (List Char × Cursor) :=
  readQuoted single (c.rest.length + 2) [] (c.advance 1)

/-! ### Block scalars -/

/-- What is done with the breaks at the end of a block. -/
inductive Chomping where
  | strip
  | clip
  | keep
  deriving BEq, DecidableEq, Inhabited

def chomping? (c : Cursor) : Option Chomping :=
  if c.isAt '+' then some .keep else if c.isAt '-' then some .strip else none

/-- The digit of an indentation; zero is refused. -/
def increment? (c : Cursor) : Option (Option Nat) :=
  match c.head? with
  | some x =>
    if isDigit x then (if x = '0' then none else some (some (x.toNat - '0'.toNat))) else some none
  | none => some none

/-- Reads the indicators of a block: chomping and indentation, in either order. -/
def readBlockHeader? (c : Cursor) : Option (Chomping × Option Nat × Cursor) :=
  match chomping? c with
  | some ch =>
    let c := c.advance 1
    match increment? c with
    | none => none
    | some none => some (ch, none, c)
    | some (some n) => some (ch, some n, c.advance 1)
  | none =>
    match increment? c with
    | none => none
    | some none => some (.clip, none, c)
    | some (some n) =>
      let c := c.advance 1
      match chomping? c with
      | some ch => some (ch, some n, c.advance 1)
      | none => some (.clip, some n, c)

/-- Reads the indentation and the breaks before a line of a block. The indentation is at most
`indent`, if that is known. Returns the breaks, the place, and the greatest column reached. -/
def readBlockBreaks (indent : Option Nat) :
    Nat → List Char → Nat → Cursor → Option (List Char × Nat × Cursor)
  | 0, _, _, _ => none
  | fuel + 1, breaks, deepest, c =>
    let blanks := (c.takeWhile (· = ' ')).1.length
    let c := match indent with
      | none => c.advance blanks
      | some n => c.advance (min blanks (n - c.column))
    let deepest := max deepest c.column
    if c.isAt '\t' && (match indent with | none => true | some n => c.column < n) then none
    else if !c.atBreak then some (breaks, deepest, c)
    else
      let (b, c) := c.takeBreak
      readBlockBreaks indent fuel (breaks ++ b) deepest c

/-- The text of a block that is being read. -/
structure BlockText where
  text : List Char := []
  /-- The break at the end of the last line. -/
  leading : List Char := []
  /-- The breaks after it. -/
  trailing : List Char := []
  /-- The last line begins with a blank. -/
  indented : Bool := false

/-- Reads the lines of a block. -/
def readBlockLines (folded : Bool) (indent : Nat) : Nat → BlockText → Cursor →
    Option (BlockText × Cursor)
  | 0, _, _ => none
  | fuel + 1, b, c =>
    if c.column ≠ indent || c.atEnd then some (b, c)
    else
      let blank := c.atBlank
      let joint :=
        if folded && b.leading.head? = some '\n' && !b.indented && !blank then
          if b.trailing.isEmpty then [' '] else []
        else b.leading
      let (line, c) := c.takeWhile fun x => !isBreak x
      let (leading, c) := c.takeBreak
      match readBlockBreaks (some indent) (c.rest.length + 1) [] 0 c with
      | none => none
      | some (trailing, _, c) =>
        readBlockLines folded indent fuel
          { text := b.text ++ (joint ++ (b.trailing ++ line)), leading, trailing, indented := blank }
          c

/-- Reads a block scalar inside a block of the given indentation, which is absent at the top. -/
def readBlockScalar (folded : Bool) (parent : Option Nat) (c : Cursor) :
    Option (List Char × Cursor) := do
  let (chomping, increment, c) ← readBlockHeader? (c.advance 1)
  let c ← c.skipLineEnd?
  let known := increment.map fun n => parent.getD 0 + n
  let (breaks, deepest, c) ← readBlockBreaks known (c.rest.length + 1) [] 0 c
  let least := match parent with
    | none => 1
    | some n => n + 1
  let indent := known.getD (max deepest least)
  let (b, c) ← readBlockLines folded indent (c.rest.length + 1) { trailing := breaks } c
  let text := match chomping with
    | .strip => b.text
    | .clip => b.text ++ b.leading
    | .keep => b.text ++ (b.leading ++ b.trailing)
  return (text, c)

end SourceAudit.Yaml
