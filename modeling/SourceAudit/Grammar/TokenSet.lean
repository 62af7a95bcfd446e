/-!
Sets of token numbers below 128, held in two machine words.
They are the look-ahead sets of the parser, so union and membership have to be cheap.
-/

namespace SourceAudit.Grammar

/-- A set of token numbers: number `i < 64` is bit `i` of `low`, number `64 + i` is bit `i` of `high`. -/
structure TokenSet where
  low : UInt64
  high : UInt64
  deriving BEq, Hashable, Inhabited

namespace TokenSet

def empty : TokenSet := ⟨0, 0⟩

def singleton (t : Nat) : TokenSet :=
  if t < 64 then ⟨1 <<< t.toUInt64, 0⟩ else ⟨0, 1 <<< (t - 64).toUInt64⟩

def union (a b : TokenSet) : TokenSet :=
  ⟨a.low ||| b.low, a.high ||| b.high⟩

def diff (a b : TokenSet) : TokenSet :=
  ⟨a.low &&& ~~~b.low, a.high &&& ~~~b.high⟩

def inter (a b : TokenSet) : TokenSet :=
  ⟨a.low &&& b.low, a.high &&& b.high⟩

def contains (s : TokenSet) (t : Nat) : Bool :=
  if t < 64 then (s.low >>> t.toUInt64) &&& 1 != 0
  else if t < 128 then (s.high >>> (t - 64).toUInt64) &&& 1 != 0
  else false

def insert (s : TokenSet) (t : Nat) : TokenSet := s.union (singleton t)

def isEmpty (s : TokenSet) : Bool := s.low == 0 && s.high == 0

def ofList (ts : List Nat) : TokenSet := ts.foldl insert empty

/-- The members in increasing order. -/
def toList (s : TokenSet) : List Nat := (List.range 128).filter s.contains

end TokenSet
end SourceAudit.Grammar
