import SourceAudit.Text.Identifier

/-!
Regular patterns for tokens, matched by partial derivatives.
The only question asked of a pattern is how far its longest match reaches.
-/

namespace SourceAudit.Grammar

/-- A class of characters. -/
inductive CharClass where
  | oneOf (ranges : List (Char × Char))
  /-- All characters outside the ranges; the null character never belongs. -/
  | noneOf (ranges : List (Char × Char))
  | identifierStart
  | identifierPart
  deriving BEq

namespace CharClass

def contains (c : Char) : CharClass → Bool
  | .oneOf ranges => ranges.any fun (lo, hi) => lo ≤ c && c ≤ hi
  | .noneOf ranges => c != '\x00' && !ranges.any fun (lo, hi) => lo ≤ c && c ≤ hi
  | .identifierStart => Text.isIdentifierStart c
  | .identifierPart => Text.isIdentifierPart c

end CharClass

inductive Pattern where
  | empty
  | char (cls : CharClass)
  | seq (a b : Pattern)
  | alt (a b : Pattern)
  | star (a : Pattern)
  deriving BEq

namespace Pattern

def oneOf (ranges : List (Char × Char)) : Pattern := .char (.oneOf ranges)

def literal (s : String) : Pattern :=
  s.toList.foldr (fun c p => .seq (oneOf [(c, c)]) p) .empty

def optional (a : Pattern) : Pattern := .alt a .empty

def plus (a : Pattern) : Pattern := .seq a (.star a)

def concat (ps : List Pattern) : Pattern := ps.foldr .seq .empty

def anyOf : List Pattern → Pattern
  | [] => .empty
  | [p] => p
  | p :: ps => .alt p (anyOf ps)

/-- `a` exactly `n` times. -/
def times (a : Pattern) : Nat → Pattern
  | 0 => .empty
  | n + 1 => .seq a (times a n)

/-- Whether the empty text matches. -/
def nullable : Pattern → Bool
  | .empty => true
  | .char _ => false
  | .seq a b => a.nullable && b.nullable
  | .alt a b => a.nullable || b.nullable
  | .star _ => true

/-- Patterns that together match the texts `w` for which `c :: w` matches. -/
def partials (c : Char) : Pattern → List Pattern
  | .empty => []
  | .char cls => if cls.contains c then [.empty] else []
  | .seq a b =>
    let first := (a.partials c).map (.seq · b)
    if a.nullable then first ++ b.partials c else first
  | .alt a b => a.partials c ++ b.partials c
  | .star a => (a.partials c).map (.seq · (.star a))

/-- The furthest end of a match that continues with one of `ps` at position `i`;
`best` is the furthest end found so far. -/
def furthest (input : Array Char) (ps : List Pattern) (i : Nat) (best : Option Nat) : Option Nat :=
  let best := if ps.any nullable then some i else best
  if h : i < input.size then
    match (ps.flatMap (partials input[i])).eraseDups with
    | [] => best
    | next => furthest input next (i + 1) best
  else best
termination_by input.size - i

/-- End of the longest match of `p` that starts at `i`. -/
def longest (p : Pattern) (input : Array Char) (i : Nat) : Option Nat :=
  furthest input [p] i none

end Pattern

/-- End of the word `w` if it stands at position `i`. -/
def matchWord (input : Array Char) : List Char → Nat → Option Nat
  | [], i => some i
  | c :: cs, i => if input[i]? == some c then matchWord input cs (i + 1) else none

end SourceAudit.Grammar
