/-!
What a terminal shows of a text: control sequences and control characters are left out, line ends and
blanks stay. A sequence that is not finished when the text ends shows nothing.
-/

namespace SourceAudit.Text

/-- Where a terminal stands in a text. -/
inductive TerminalMode where
  | text
  /-- After an escape character. -/
  | escape
  /-- After an escape character and further characters that belong to it. -/
  | intermediate
  /-- In a control sequence, up to the letter that ends it. -/
  | sequence
  /-- In a string that is not shown; a bell ends it if `bell` is set. -/
  | string (bell : Bool)
  deriving BEq, DecidableEq, Inhabited

/-- Control characters that move on in the line or to the next one. -/
def isSpacing (c : Char) : Bool := c = '\t' || c = '\n' || c = '\x0c' || c = '\r'

/-- A character that is shown outside sequences. -/
def isShown (c : Char) : Bool := isSpacing c || (' ' ≤ c && c ≠ '\x7f')

/-- The mode after a character that follows an escape character. -/
def afterEscape (c : Char) : TerminalMode :=
  if c = '[' then .sequence
  else if c = ']' then .string true
  else if c = 'P' || c = 'X' || c = '^' || c = '_' then .string false
  else if ' ' ≤ c && c ≤ '/' then .intermediate
  else if c < ' ' || c = '\x7f' then .escape
  else .text

/-- The mode after a character that is not shown. -/
def TerminalMode.next (m : TerminalMode) (c : Char) : TerminalMode :=
  match m with
  | .text => .text
  | .escape => afterEscape c
  | .intermediate => if '0' ≤ c && c ≠ '\x7f' then .text else .intermediate
  | .sequence => if '@' ≤ c && c ≠ '\x7f' then .text else .sequence
  | .string bell => if bell && c = '\x07' then .text else .string bell

/-- What is shown of a text that is entered in the given mode. In any mode an escape character begins
a sequence and two others end it; a character that moves on ends it too, unless in a string. -/
def visibleFrom (m : TerminalMode) : List Char → List Char
  | [] => []
  | c :: cs =>
    if c = '\x1b' then visibleFrom .escape cs
    else if c = '\x18' || c = '\x1a' then visibleFrom .text cs
    else
      match m with
      | .text => if isShown c then c :: visibleFrom .text cs else visibleFrom .text cs
      | .string bell => visibleFrom ((TerminalMode.string bell).next c) cs
      | m => if isSpacing c then c :: visibleFrom .text cs else visibleFrom (m.next c) cs

/-- What is shown of a text. -/
def visible (s : String) : String := String.ofList (visibleFrom .text s.toList)

end SourceAudit.Text
