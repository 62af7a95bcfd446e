import SourceAudit.Json.Value

/-!
JSON texts: compact, and with one element or field a line and two blanks for each level.
-/

namespace SourceAudit.Json

open SourceAudit.Number (Binary64 Decimal)

/-! ### Numbers -/

def zeros (n : Nat) : List Char := List.replicate n '0'

/-- An exponent, always with its sign. -/
def exponentText (e : Int) : List Char :=
  (if e < 0 then '-' else '+') :: Nat.toDigits 10 e.natAbs

/-- A finite double: positional if the point falls within the first 16 places or at most five zeros
stand before the first digit, else with an exponent. A fraction is always written. -/
def doubleText (x : Binary64) : List Char :=
  let d := x.shortest
  let ds := Nat.toDigits 10 d.digits
  let point : Int := ds.length + d.exponent
  let sign := if x.isNegative then ['-'] else []
  let body :=
    if d.digits = 0 then ['0', '.', '0']
    else if 0 ≤ d.exponent ∧ point ≤ 16 then ds ++ zeros d.exponent.toNat ++ ['.', '0']
    else if 0 < point ∧ point ≤ 16 then ds.take point.toNat ++ '.' :: ds.drop point.toNat
    else if -5 < point ∧ point ≤ 0 then '0' :: '.' :: (zeros (-point).toNat ++ ds)
    else
      let e := exponentText (point - 1)
      match ds with
      | [c] => c :: 'e' :: e
      | c :: cs => c :: '.' :: (cs ++ 'e' :: e)
      | [] => []
  sign ++ body

def intText (n : Int) : List Char :=
  if n < 0 then '-' :: Nat.toDigits 10 n.natAbs else Nat.toDigits 10 n.natAbs

/-! ### Strings -/

def hexDigit (n : Nat) : Char := if n < 10 then Char.ofNat (48 + n) else Char.ofNat (87 + n)

/-- A character inside a string: quotes, backslashes and control characters are escaped. -/
def escapeChar (c : Char) : List Char :=
  if c = '"' then ['\\', '"']
  else if c = '\\' then ['\\', '\\']
  else if c = '\x08' then ['\\', 'b']
  else if c = '\x0c' then ['\\', 'f']
  else if c = '\n' then ['\\', 'n']
  else if c = '\r' then ['\\', 'r']
  else if c = '\t' then ['\\', 't']
  else if c.toNat < 32 then
    ['\\', 'u', '0', '0', hexDigit (c.toNat / 16), hexDigit (c.toNat % 16)]
  else [c]

def stringText (s : String) : List Char := '"' :: (s.toList.flatMap escapeChar ++ ['"'])

/-! ### Values -/

mutual

/-- The value on one line. -/
def compact : Json → List Char
  | .null => "null".toList
  | .bool true => "true".toList
  | .bool false => "false".toList
  | .int n => intText n
  | .double x => doubleText x
  | .str s => stringText s
  | .arr [] => ['[', ']']
  | .arr (x :: xs) => '[' :: (x.compact ++ compactRest xs)
  | .obj [] => ['\x7b', '\x7d']
  | .obj ((n, v) :: fs) => '\x7b' :: (stringText n ++ ':' :: (v.compact ++ compactFields fs))

def compactRest : List Json → List Char
  | [] => [']']
  | x :: xs => ',' :: (x.compact ++ compactRest xs)

def compactFields : List (String × Json) → List Char
  | [] => ['\x7d']
  | (n, v) :: fs => ',' :: (stringText n ++ ':' :: (v.compact ++ compactFields fs))

end

/-- A line end and the indentation of the next line. -/
def newLine (level : Nat) : List Char := '\n' :: List.replicate (2 * level) ' '

mutual

/-- The value over several lines, where `level` is the indentation of the line it begins on. -/
def prettyAt (level : Nat) : Json → List Char
  | .null => "null".toList
  | .bool true => "true".toList
  | .bool false => "false".toList
  | .int n => intText n
  | .double x => doubleText x
  | .str s => stringText s
  | .arr [] => ['[', ']']
  | .arr (x :: xs) =>
    '[' :: (newLine (level + 1) ++ (x.prettyAt (level + 1) ++ prettyRest level xs))
  | .obj [] => ['\x7b', '\x7d']
  | .obj ((n, v) :: fs) =>
    '\x7b' :: (newLine (level + 1) ++
      (stringText n ++ ':' :: ' ' :: (v.prettyAt (level + 1) ++ prettyFields level fs)))

/-- The elements after the first one and the end of the array. -/
def prettyRest (level : Nat) : List Json → List Char
  | [] => newLine level ++ [']']
  | x :: xs =>
    ',' :: (newLine (level + 1) ++ (x.prettyAt (level + 1) ++ prettyRest level xs))

/-- The fields after the first one and the end of the object. -/
def prettyFields (level : Nat) : List (String × Json) → List Char
  | [] => newLine level ++ ['\x7d']
  | (n, v) :: fs =>
    ',' :: (newLine (level + 1) ++
      (stringText n ++ ':' :: ' ' :: (v.prettyAt (level + 1) ++ prettyFields level fs)))

end

/-- The value over several lines. -/
def pretty (j : Json) : String := String.ofList (j.prettyAt 0)

end SourceAudit.Json
