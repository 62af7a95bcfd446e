/-!
Double precision numbers by their bits, with exact conversions to and from ratios of natural
numbers. All rounding is to the nearest double, a tie to the even one.
-/

namespace SourceAudit.Number

/-- A double, by its 64 bits. -/
structure Binary64 where
  bits : UInt64
  deriving BEq, DecidableEq, Inhabited

/-- The quotient rounded to the nearest natural number, a tie to the even one. -/
def roundDiv (num den : Nat) : Nat :=
  let q := num / den
  let r := num % den
  if 2 * r < den then q
  else if 2 * r > den then q + 1
  else if q % 2 = 0 then q else q + 1

/-- `a · 2^e` as a ratio. -/
def scaleTwo (a : Nat) (e : Int) : Nat × Nat :=
  if e < 0 then (a, 1 <<< e.natAbs) else (a <<< e.natAbs, 1)

/-- `a · 10^e` as a ratio. -/
def scaleTen (a : Nat) (e : Int) : Nat × Nat :=
  if e < 0 then (a, Nat.pow 10 e.natAbs) else (a * Nat.pow 10 e.natAbs, 1)

namespace Binary64

/-- Exponent of the least place of the smallest doubles. -/
def leastExponent : Int := -1074

/-- Exponent of the least place of the largest doubles. -/
def greatestExponent : Int := 971

def isNegative (x : Binary64) : Bool := x.bits.toNat >>> 63 = 1

/-- The exponent field. -/
def biased (x : Binary64) : Nat := (x.bits.toNat >>> 52) % 2048

def fraction (x : Binary64) : Nat := x.bits.toNat % (1 <<< 52)

def isFinite (x : Binary64) : Bool := x.biased ≠ 2047

/-- Whether the double is no number. -/
def isNaN (x : Binary64) : Bool := !x.isFinite && x.fraction ≠ 0

/-- A finite double is `significand · 2^exponent` up to its sign. -/
def significand (x : Binary64) : Nat :=
  if x.biased = 0 then x.fraction else x.fraction + (1 <<< 52)

def exponent (x : Binary64) : Int :=
  if x.biased = 0 then leastExponent else (x.biased : Int) - 1075

/-- The absolute value as a ratio. -/
def ratio (x : Binary64) : Nat × Nat := scaleTwo x.significand x.exponent

def signBit (negative : Bool) : Nat := if negative then 1 <<< 63 else 0

def infinity (negative : Bool) : Binary64 := ⟨(signBit negative + (2047 <<< 52)).toUInt64⟩

def zero (negative : Bool) : Binary64 := ⟨(signBit negative).toUInt64⟩

/-- The double `m · 2^e`, where `m < 2^53` and either `2^52 ≤ m` or `e` is least. -/
def pack (negative : Bool) (m : Nat) (e : Int) : Binary64 :=
  if m < 1 <<< 52 then ⟨(signBit negative + m).toUInt64⟩
  else ⟨(signBit negative + ((e + 1075).toNat <<< 52) + (m - (1 <<< 52))).toUInt64⟩

/-- `num / den` in units of `2^e`, rounded. -/
def roundedAt (num den : Nat) (e : Int) : Nat :=
  if e < 0 then roundDiv (num <<< e.natAbs) den else roundDiv num (den <<< e.natAbs)

/-- The double nearest to `num / den`. -/
def ofRatio (negative : Bool) (num den : Nat) : Binary64 :=
  if num = 0 ∨ den = 0 then zero negative
  else
    let guess : Int := (num.log2 : Int) - (den.log2 : Int) - 53
    let (a, b) := if guess < 0 then (num <<< guess.natAbs, den) else (num, den <<< guess.natAbs)
    let exact := if a / b < 1 <<< 53 then guess else guess + 1
    let e := max leastExponent exact
    let m := roundedAt num den e
    let (m, e) := if m = 1 <<< 53 then (1 <<< 52, e + 1) else (m, e)
    if e > greatestExponent then infinity negative else pack negative m e

/-- The double nearest to an integer. -/
def ofInt (n : Int) : Binary64 := ofRatio (n < 0) n.natAbs 1

def neg (x : Binary64) : Binary64 :=
  ⟨x.bits ^^^ (signBit true).toUInt64⟩

/-- Product of the absolute values. -/
def mulAbs (x y : Binary64) : Binary64 :=
  let (a, b) := x.ratio
  let (c, d) := y.ratio
  ofRatio false (a * c) (b * d)

/-- Quotient of the absolute values. -/
def divAbs (x y : Binary64) : Binary64 :=
  let (a, b) := x.ratio
  let (c, d) := y.ratio
  ofRatio false (a * d) (b * c)

/-- The double nearest to `10^k`. -/
def powerOfTen (k : Nat) : Binary64 := ofRatio false (Nat.pow 10 k) 1

/-- Whether the double is at least the natural number `n`; infinity is. -/
def atLeast (x : Binary64) (n : Nat) : Bool :=
  if x.isNaN then false
  else if x.isNegative then n = 0 && x.isFinite && x.significand = 0
  else if !x.isFinite then true
  else
    let (a, b) := x.ratio
    a ≥ n * b

end Binary64
end SourceAudit.Number
