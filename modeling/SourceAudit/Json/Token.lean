import SourceAudit.Json.Value

/-!
The tokens of a JSON text.
-/

namespace SourceAudit.Json

open SourceAudit.Number (Binary64)

/-- A token. A number that is too large for a double is an infinite one. -/
inductive Token where
  | openArray
  | closeArray
  | openObject
  | closeObject
  | comma
  | colon
  | null
  | bool (b : Bool)
  | int (n : Int)
  | double (x : Binary64)
  | str (s : String)
  /-- A string with half of a surrogate pair in it. -/
  | brokenStr
  deriving BEq, DecidableEq, Inhabited

/-! ### Numbers -/

def isDigit (c : Char) : Bool := '0' ≤ c && c ≤ '9'

def digitValue (c : Char) : Nat := c.toNat - '0'.toNat

def wordLimit : Nat := 1 <<< 64

/-- Greatest exponent that is read as such. -/
def exponentLimit : Nat := 1 <<< 31

/-- Reads digits into a number as long as it fits into 64 bits. Returns the number, how many digits
it took, and the rest. -/
def readWord (n count : Nat) : List Char → Nat × Nat × List Char
  | [] => (n, count, [])
  | c :: cs =>
    if isDigit c then
      if n * 10 + digitValue c < wordLimit then readWord (n * 10 + digitValue c) (count + 1) cs
      else (n, count, c :: cs)
    else (n, count, c :: cs)

/-- `n · 10^e` for a word `n`, as it comes out of one multiplication or of divisions in double
precision. -/
def scaleWord (n : Nat) (e : Int) : Binary64 :=
  let x := Binary64.ofInt n
  if 0 ≤ e then
    if e.toNat ≤ 308 then x.mulAbs (.powerOfTen e.toNat)
    else if n = 0 then x
    else .infinity false
  else divide x e.natAbs (e.natAbs / 308 + 1)
where
  /-- Divides by `10^k` in steps of at most 308 places. -/
  divide (x : Binary64) (k : Nat) : Nat → Binary64
    | 0 => x
    | fuel + 1 =>
      if k ≤ 308 then x.divAbs (.powerOfTen k)
      else if x.significand = 0 then x
      else divide (x.divAbs (.powerOfTen 308)) (k - 308) fuel

def signed (negative : Bool) (x : Binary64) : Binary64 := if negative then x.neg else x

/-- Whether an exponent has a minus sign, and what follows its sign. -/
def exponentSign : List Char → Bool × List Char
  | '+' :: cs => (false, cs)
  | '-' :: cs => (true, cs)
  | cs => (false, cs)

/-- The number `n · 10^(base ± e)`. An exponent that is too large gives zero or infinity. -/
def scaleBy (negative : Bool) (n : Nat) (base : Int) (down : Bool) (e : Nat) : Binary64 :=
  if e ≥ exponentLimit then
    if n ≠ 0 && !down then .infinity negative else .zero negative
  else signed negative (scaleWord n (if down then base - e else base + e))

/-- Reads an exponent after its mark. The significand is `n · 10^base`. -/
def readExponent (negative : Bool) (n : Nat) (base : Int) (cs : List Char) :
    Option (Binary64 × List Char) :=
  let (down, cs) := exponentSign cs
  let digits := cs.takeWhile isDigit
  if digits.isEmpty then none
  else
    let e := digits.foldl (fun e c => e * 10 + digitValue c) 0
    some (scaleBy negative n base down e, cs.dropWhile isDigit)

/-- Reads the exponent that may follow the digits of a double. -/
def readScale (negative : Bool) (n : Nat) (base : Int) : List Char → Option (Binary64 × List Char)
  | 'e' :: cs | 'E' :: cs => readExponent negative n base cs
  | cs => some (signed negative (scaleWord n base), cs)

/-- Reads what follows the integral digits of a double. -/
def readTail (negative : Bool) (n : Nat) (base : Int) : List Char → Option (Binary64 × List Char)
  | '.' :: cs =>
    let (m, count, rest) := readWord n 0 cs
    if count = 0 && (rest.takeWhile isDigit).isEmpty then none
    else readScale negative m (base - count) (rest.dropWhile isDigit)
  | cs => readScale negative n base cs

/-- Whether a fraction or an exponent follows. -/
def continuesDouble : List Char → Bool
  | '.' :: _ | 'e' :: _ | 'E' :: _ => true
  | _ => false

/-- The token of an integer. A negative one is a double if it is zero or does not fit. -/
def integerToken (negative : Bool) (n : Nat) : Token :=
  if !negative then .int n
  else if n = 0 || n > 1 <<< 63 then .double (.ofRatio true n 1)
  else .int (-(n : Int))

/-- Reads a number after its sign. -/
def readNumber (negative : Bool) (cs : List Char) : Option (Token × List Char) :=
  match cs with
  | [] => none
  | c :: rest =>
    if !isDigit c then none
    else if c = '0' && (rest.head?.any isDigit) then none
    else
      let (n, _, rest) := readWord 0 0 cs
      let more := rest.takeWhile isDigit
      if more.isEmpty && !continuesDouble rest then some (integerToken negative n, rest)
      else
        (readTail negative n more.length (rest.dropWhile isDigit)).map fun (x, rest) =>
          (.double x, rest)

/-! ### Strings -/

def hexValue? (c : Char) : Option Nat :=
  if '0' ≤ c && c ≤ '9' then some (c.toNat - '0'.toNat)
  else if 'a' ≤ c && c ≤ 'f' then some (c.toNat - 'a'.toNat + 10)
  else if 'A' ≤ c && c ≤ 'F' then some (c.toNat - 'A'.toNat + 10)
  else none

def hexCode? (a b c d : Char) : Option Nat :=
  match hexValue? a, hexValue? b, hexValue? c, hexValue? d with
  | some a, some b, some c, some d => some (((a * 16 + b) * 16 + c) * 16 + d)
  | _, _, _, _ => none

def simpleEscape? : Char → Option Char
  | '"' => some '"'
  | '\\' => some '\\'
  | '/' => some '/'
  | 'b' => some '\x08'
  | 'f' => some '\x0c'
  | 'n' => some '\n'
  | 'r' => some '\r'
  | 't' => some '\t'
  | _ => none

/-- A string token of the characters read, nearest first. -/
def stringToken (sound : Bool) (done : List Char) : Token :=
  if sound then .str (String.ofList done.reverse) else .brokenStr

/-- The character that a pair of surrogates stands for. -/
def joinSurrogates (high low : Nat) : Char :=
  Char.ofNat (0x10000 + (high - 0xD800) * 0x400 + (low - 0xDC00))

/-- The second half of a surrogate pair at the front of a text. -/
def lowSurrogate? : List Char → Option Nat
  | '\\' :: 'u' :: a :: b :: c :: d :: _ =>
    match hexCode? a b c d with
    | some n => if 0xDC00 ≤ n && n ≤ 0xDFFF then some n else none
    | none => none
  | _ => none

/-- Reads the rest of a string after its opening quote; `done` holds what was read, nearest first.
The string is `sound` as long as no half of a surrogate pair stands alone. `high` is the first half
of a pair whose second half comes next. -/
def readString (sound : Bool) (high : Option Nat) (done : List Char) :
    List Char → Option (Token × List Char)
  | [] => none
  | '"' :: cs => some (stringToken sound done, cs)
  | '\\' :: 'u' :: a :: b :: c :: d :: cs =>
    match hexCode? a b c d with
    | none => none
    | some n =>
      match high with
      | some h => readString sound none (joinSurrogates h n :: done) cs
      | none =>
        if 0xDC00 ≤ n && n ≤ 0xDFFF then readString false none done cs
        else if 0xD800 ≤ n && n ≤ 0xDBFF then
          if (lowSurrogate? cs).isSome then readString sound (some n) done cs
          else readString false none done cs
        else readString sound none (Char.ofNat n :: done) cs
  | '\\' :: c :: cs =>
    match simpleEscape? c with
    | some d => readString sound none (d :: done) cs
    | none => none
  | c :: cs =>
    if c.toNat < 32 || c = '\\' then none else readString sound none (c :: done) cs

/-! ### Tokens -/

def isBlank (c : Char) : Bool := c = ' ' || c = '\n' || c = '\t' || c = '\r'

/-- The rest of the text after the given word. -/
def dropWord? : List Char → List Char → Option (List Char)
  | [], cs => some cs
  | _ :: _, [] => none
  | w :: ws, c :: cs => if w = c then dropWord? ws cs else none

/-- The sign or word that begins with a character: what comes after that character, and its token. -/
def wordFrom? : Char → Option (List Char × Token)
  | '[' => some ([], .openArray)
  | ']' => some ([], .closeArray)
  | '\x7b' => some ([], .openObject)
  | '\x7d' => some ([], .closeObject)
  | ',' => some ([], .comma)
  | ':' => some ([], .colon)
  | 'n' => some (['u', 'l', 'l'], .null)
  | 't' => some (['r', 'u', 'e'], .bool true)
  | 'f' => some (['a', 'l', 's', 'e'], .bool false)
  | _ => none

/-- The token at the front of a text that begins with `c`. -/
def readToken (c : Char) (cs : List Char) : Option (Token × List Char) :=
  if c = '"' then readString true none [] cs
  else if c = '-' then readNumber true cs
  else if isDigit c then readNumber false (c :: cs)
  else
    match wordFrom? c with
    | none => none
    | some (w, t) => (dropWord? w cs).map fun rest => (t, rest)

/-- The tokens of a text, at most `fuel` of them; none if the text has another part. -/
def tokensUpTo : Nat → List Char → Option (List Token)
  | _, [] => some []
  | 0, _ => none
  | fuel + 1, c :: cs =>
    if isBlank c then tokensUpTo fuel cs
    else
      match readToken c cs with
      | none => none
      | some (t, rest) => (tokensUpTo fuel rest).map (t :: ·)

/-- The tokens of a text. Every token takes at least one character. -/
def tokens? (cs : List Char) : Option (List Token) := tokensUpTo cs.length cs

end SourceAudit.Json
