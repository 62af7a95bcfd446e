/-!
A text as the parser sees it: characters by index, with the byte offset, row and byte column of each.
-/

namespace SourceAudit.Parsing

/-- A place in a text: row and byte column, both from zero, and byte offset. -/
structure Point where
  row : Nat
  column : Nat
  byte : Nat
  deriving BEq, DecidableEq, Inhabited, Repr

structure Source where
  chars : Array Char
  /-- The place of each character and of the end of the text. -/
  points : Array Point

namespace Source

/-- The place after character `c` at place `p`. Only a line feed starts a row. -/
def after (p : Point) (c : Char) : Point :=
  if c == '\n' then ⟨p.row + 1, 0, p.byte + 1⟩
  else ⟨p.row, p.column + c.utf8Size, p.byte + c.utf8Size⟩

def ofChars (cs : List Char) : Source :=
  let (points, last) := cs.foldl (fun (ps, p) c => (ps.push p, after p c))
    ((#[] : Array Point), (⟨0, 0, 0⟩ : Point))
  ⟨cs.toArray, points.push last⟩

def point (s : Source) (i : Nat) : Point := s.points.getD i default

def byteLength (s : Source) (i j : Nat) : Nat := (s.point j).byte - (s.point i).byte

def rowCount (s : Source) (i j : Nat) : Nat := (s.point j).row - (s.point i).row

end Source
end SourceAudit.Parsing
