/-!
Character classes given by their sorted range boundaries.
-/

namespace SourceAudit.Text

/-- Number of boundaries in `bounds[lo..hi)` plus `lo`, by halving; right when `bounds` is sorted. -/
def boundariesUpTo (bounds : Array Nat) (n lo hi : Nat) : Nat :=
  if _h : lo < hi then
    let mid := (lo + hi) / 2
    if bounds.getD mid 0 ≤ n then boundariesUpTo bounds n (mid + 1) hi
    else boundariesUpTo bounds n lo mid
  else lo
termination_by hi - lo

/-- Membership in a class listed as `start, stop, start, stop, …` with each `stop` excluded:
a code point is inside exactly when an odd number of boundaries do not exceed it. -/
def inRanges (bounds : Array Nat) (c : Char) : Bool :=
  boundariesUpTo bounds c.toNat 0 bounds.size % 2 == 1

end SourceAudit.Text
