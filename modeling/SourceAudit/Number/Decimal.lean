import SourceAudit.Number.Binary64

/-!
Decimal forms of doubles: the shortest one that reads back, and one with a fixed number of places.
-/

namespace SourceAudit.Number

/-- `digits · 10^exponent`. -/
structure Decimal where
  digits : Nat
  exponent : Int
  deriving BEq, DecidableEq, Inhabited

def digitCount (n : Nat) : Nat := (Nat.toDigits 10 n).length

/-- The greatest `k` with `10^k ≤ num / den`, for positive `num` and `den`. -/
def leadingPlace (num den : Nat) : Int :=
  if num ≥ den then (digitCount (num / den) : Int) - 1
  else -(digitCount ((den + num - 1) / num - 1) : Int)

/-- `digits · 10^exponent ≤ num / den`. -/
def Decimal.leRatio (d : Decimal) (num den : Nat) : Bool :=
  let (a, b) := scaleTen d.digits d.exponent
  a * den ≤ num * b

/-- `digits · 10^exponent < num / den`. -/
def Decimal.ltRatio (d : Decimal) (num den : Nat) : Bool :=
  let (a, b) := scaleTen d.digits d.exponent
  a * den < num * b

namespace Binary64

/-- The numbers that round to a double lie between these multiples of `2^(exponent - 2)`; they round
to it themselves exactly if the significand is even. -/
def interval (x : Binary64) : Nat × Nat :=
  let m := x.significand
  let below := if x.fraction = 0 ∧ x.biased > 1 then 4 * m - 1 else 4 * m - 2
  (below, 4 * m + 2)

def readsBack (x : Binary64) (d : Decimal) : Bool :=
  let (lo, hi) := x.interval
  let (a, b) := scaleTwo lo (x.exponent - 2)
  let (c, e) := scaleTwo hi (x.exponent - 2)
  if x.significand % 2 = 0 then !d.ltRatio a b && d.leRatio c e
  else !d.leRatio a b && d.ltRatio c e

/-- The decimal with the given last place that reads back, the nearer of two, if there is one. -/
def candidateAt (x : Binary64) (place : Int) : Option Decimal :=
  let (a, b) := x.ratio
  let scale := Nat.pow 10 place.natAbs
  let (a, b) := if place < 0 then (a * scale, b) else (a, b * scale)
  let q := a / b
  let r := a % b
  let down : Decimal := ⟨q, place⟩
  let up : Decimal := ⟨q + 1, place⟩
  let nearUp := 2 * r > b ∨ (2 * r = b ∧ q % 2 = 1)
  let (first, second) := if nearUp then (up, down) else (down, up)
  if x.readsBack first then some first
  else if x.readsBack second then some second
  else none

/-- The candidate with fewest digits, where `n` digits have already been found too few. -/
def shortestFrom (x : Binary64) (top : Int) : Nat → Nat → Decimal
  | 0, _ => ⟨0, 0⟩
  | fuel + 1, n =>
    match x.candidateAt (top - n) with
    | some d => d
    | none => shortestFrom x top fuel (n + 1)

/-- A decimal without zeros at the end. -/
def stripZeros : Nat → Decimal → Decimal
  | 0, d => d
  | fuel + 1, d =>
    if d.digits ≠ 0 ∧ d.digits % 10 = 0 then stripZeros fuel ⟨d.digits / 10, d.exponent + 1⟩ else d

/-- The shortest decimal that reads back as the absolute value. -/
def shortest (x : Binary64) : Decimal :=
  if x.significand = 0 then ⟨0, 0⟩
  else
    let (a, b) := x.ratio
    stripZeros 20 (shortestFrom x (leadingPlace a b) 18 0)

/-- The absolute value with `places` decimals, rounded from the exact value. -/
def fixedAbs (x : Binary64) (places : Nat) : String :=
  let (a, b) := x.ratio
  let n := roundDiv (a * Nat.pow 10 places) b
  let digits := toString n
  let padded := String.ofList (List.replicate (places + 1 - digits.length) '0') ++ digits
  let cs := padded.toList
  String.ofList (cs.take (cs.length - places)) ++
    (if places = 0 then "" else "." ++ String.ofList (cs.drop (cs.length - places)))

/-- The number with a fixed number of decimals. What is no number has no sign. -/
def fixed (x : Binary64) (places : Nat) : String :=
  let body := if x.isFinite then x.fixedAbs places else "inf"
  if x.isNaN then "NaN" else if x.isNegative then "-" ++ body else body

end Binary64
end SourceAudit.Number
