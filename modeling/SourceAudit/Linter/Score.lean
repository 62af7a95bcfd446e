import SourceAudit.Number.Binary64
import SourceAudit.Text.Blank
import SourceAudit.Text.Digit

/-!
The score in the prose of the linter: the first phrase `rated at` *number* `/ 10`.
-/

namespace SourceAudit.Linter

open SourceAudit.Number (Binary64)
open SourceAudit.Text (isBlank isDecimalDigit)

/-- The rest of a text after the given word. -/
def afterWord? : List Char → List Char → Option (List Char)
  | [], cs => some cs
  | _ :: _, [] => none
  | w :: ws, c :: cs => if w = c then afterWord? ws cs else none

/-- A number as it is written: sign, digits, and the digits after the point. -/
structure Numeral where
  negative : Bool
  whole : List Char
  fraction : List Char
  deriving BEq, DecidableEq

/-- Reads a numeral at the front of a text. A point belongs to it only if digits follow. -/
def readNumeral? (cs : List Char) : Option (Numeral × List Char) :=
  let (negative, cs) := match cs with
    | '-' :: cs => (true, cs)
    | cs => (false, cs)
  let whole := cs.takeWhile isDecimalDigit
  let rest := cs.dropWhile isDecimalDigit
  if whole.isEmpty then none
  else
    match rest with
    | '.' :: more =>
      let fraction := more.takeWhile isDecimalDigit
      if fraction.isEmpty then some (⟨negative, whole, []⟩, rest)
      else some (⟨negative, whole, fraction⟩, more.dropWhile isDecimalDigit)
    | _ => some (⟨negative, whole, []⟩, rest)

/-- The numeral of a score phrase at the front of a text. -/
def phraseAt? (cs : List Char) : Option Numeral :=
  match afterWord? "rated at".toList cs with
  | none => none
  | some rest =>
    if (rest.takeWhile isBlank).isEmpty then none
    else
      match readNumeral? (rest.dropWhile isBlank) with
      | none => none
      | some (n, rest) =>
        match rest.dropWhile isBlank with
        | '/' :: rest =>
          if (afterWord? "10".toList (rest.dropWhile isBlank)).isSome then some n else none
        | _ => none

/-- The numeral of the leftmost score phrase. -/
def firstPhrase? : List Char → Option Numeral
  | [] => none
  | c :: cs =>
    match phraseAt? (c :: cs) with
    | some n => some n
    | none => firstPhrase? cs

def isAsciiDigit (c : Char) : Bool := '0' ≤ c && c ≤ '9'

def decimalValue (digits : List Char) : Nat :=
  digits.foldl (fun n c => n * 10 + (c.toNat - '0'.toNat)) 0

/-- The double nearest to a numeral. Only numerals of ASCII digits have one. -/
def Numeral.value? (n : Numeral) : Option Binary64 :=
  if (n.whole ++ n.fraction).all isAsciiDigit then
    some (.ofRatio n.negative (decimalValue (n.whole ++ n.fraction)) (Nat.pow 10 n.fraction.length))
  else none

/-- The score of a text. -/
def score? (text : List Char) : Option Binary64 := (firstPhrase? text).bind Numeral.value?

end SourceAudit.Linter
