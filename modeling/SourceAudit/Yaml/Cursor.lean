/-!
A place in a YAML text with its line and column, and the character classes of YAML.
-/

namespace SourceAudit.Yaml

/-! ### Characters -/

/-- A line break of any kind. -/
def isBreak (c : Char) : Bool :=
  c = '\r' || c = '\n' || c = '\u0085' || c = '\u2028' || c = '\u2029'

def isBlank (c : Char) : Bool := c = ' ' || c = '\t'

/-- A character of words such as anchors and tag handles. -/
def isWord (c : Char) : Bool :=
  ('0' ≤ c && c ≤ '9') || ('A' ≤ c && c ≤ 'Z') || ('a' ≤ c && c ≤ 'z') || c = '_' || c = '-'

def isDigit (c : Char) : Bool := '0' ≤ c && c ≤ '9'

/-- A character that may stand in a text at all. -/
def isPrintable (c : Char) : Bool :=
  c = '\t' || c = '\n' || c = '\r' || (' ' ≤ c && c ≤ '~') || c = '\u0085'
    || ('\u00a0' ≤ c && c ≤ '\ufffd') || 0x10000 ≤ c.toNat

/-- A line break as it is kept in a scalar. -/
def keptBreak (c : Char) : Char := if c = '\u2028' || c = '\u2029' then c else '\n'

/-! ### Places -/

/-- The rest of a text and where it begins. -/
structure Cursor where
  rest : List Char
  index : Nat := 0
  line : Nat := 0
  column : Nat := 0
  deriving Inhabited

namespace Cursor

def head? (c : Cursor) : Option Char := c.rest.head?

/-- The next character is `x`. -/
def isAt (c : Cursor) (x : Char) : Bool := c.head? = some x

def atEnd (c : Cursor) : Bool := c.rest.isEmpty

def atBreak (c : Cursor) : Bool := c.head?.any isBreak

def atBlank (c : Cursor) : Bool := c.head?.any isBlank

/-- A blank, a break or the end of the text. -/
def isSeparated (cs : List Char) : Bool :=
  match cs.head? with
  | none => true
  | some x => isBlank x || isBreak x

def atSeparator (c : Cursor) : Bool := isSeparated c.rest

/-- A blank, a break or the end comes after `n` characters. -/
def separatorAfter (c : Cursor) (n : Nat) : Bool := isSeparated (c.rest.drop n)

/-- Steps over `n` characters of a line. -/
def advance (c : Cursor) (n : Nat) : Cursor :=
  { c with rest := c.rest.drop n, index := c.index + n, column := c.column + n }

/-- The characters up to the first that is not in the class, and the place after them. -/
def takeWhile (c : Cursor) (p : Char → Bool) : List Char × Cursor :=
  let taken := c.rest.takeWhile p
  (taken, c.advance taken.length)

def skipWhile (c : Cursor) (p : Char → Bool) : Cursor := (c.takeWhile p).2

/-- Steps over a line break, where a carriage return and a line feed are one. Returns the break as
it is kept in a scalar. -/
def takeBreak (c : Cursor) : List Char × Cursor :=
  match c.rest with
  | '\r' :: '\n' :: cs => (['\n'], ⟨cs, c.index + 2, c.line + 1, 0⟩)
  | x :: cs => if isBreak x then ([keptBreak x], ⟨cs, c.index + 1, c.line + 1, 0⟩) else ([], c)
  | [] => ([], c)

def skipBreak (c : Cursor) : Cursor := c.takeBreak.2

/-- Steps over a comment. -/
def skipComment (c : Cursor) : Cursor :=
  if c.isAt '#' then c.skipWhile (fun x => !isBreak x) else c

/-- Steps over the rest of a line on which only blanks and a comment may stand. -/
def skipLineEnd? (c : Cursor) : Option Cursor :=
  let c := (c.skipWhile isBlank).skipComment
  if c.atEnd then some c else if c.atBreak then some c.skipBreak else none

/-- A document marker at the front of a line. -/
def atDocumentMarker (c : Cursor) : Bool :=
  c.column = 0 && (['-', '-', '-'].isPrefixOf c.rest || ['.', '.', '.'].isPrefixOf c.rest)
    && c.separatorAfter 3

end Cursor
end SourceAudit.Yaml
