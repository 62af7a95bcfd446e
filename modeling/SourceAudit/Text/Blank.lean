import SourceAudit.Text.Ranges

/-!
White space of every script (property White_Space), and trimming by it.
-/

namespace SourceAudit.Text

/-- Boundaries of the white space characters. -/
def blanks : Array Nat := #[
  0x9, 0xE, 0x20, 0x21, 0x85, 0x86, 0xA0, 0xA1, 0x1680, 0x1681, 0x2000, 0x200B, 0x2028, 0x202A,
  0x202F, 0x2030, 0x205F, 0x2060, 0x3000, 0x3001]

def isBlank (c : Char) : Bool := inRanges blanks c

/-- The text without white space at either end. -/
def trimChars (cs : List Char) : List Char :=
  ((cs.dropWhile isBlank).reverse.dropWhile isBlank).reverse

end SourceAudit.Text
