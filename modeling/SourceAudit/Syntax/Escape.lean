/-!
Escape sequences of string literals.
-/

namespace SourceAudit.Syntax

def isOctalDigit (c : Char) : Bool := '0' ≤ c && c ≤ '7'

def isHexDigit (c : Char) : Bool :=
  ('0' ≤ c && c ≤ '9') || ('a' ≤ c && c ≤ 'f') || ('A' ≤ c && c ≤ 'F')

def digitValue (c : Char) : Nat :=
  if '0' ≤ c && c ≤ '9' then c.toNat - '0'.toNat
  else if 'a' ≤ c && c ≤ 'f' then c.toNat - 'a'.toNat + 10
  else c.toNat - 'A'.toNat + 10

def numberOf (radix : Nat) (digits : List Char) : Nat :=
  digits.foldl (fun n d => n * radix + digitValue d) 0

/-- The character with the given code; surrogates and codes above the last plane have none. -/
def charOfCode? (n : Nat) : Option Char :=
  if h : n.isValidChar then some (Char.ofNatAux n h) else none

/-- The longest run of at most `n` characters with property `p` at the front. -/
def takeUpTo (p : Char → Bool) (n : Nat) (cs : List Char) : List Char := (cs.take n).takeWhile p

/-- The single character that a letter behind a backslash stands for. -/
def simpleEscape? : Char → Option Char
  | 'n' => some '\n'
  | 't' => some '\t'
  | 'r' => some '\r'
  | 'a' => some '\x07'
  | 'b' => some '\x08'
  | 'f' => some '\x0c'
  | 'v' => some '\x0b'
  | '\\' => some '\\'
  | '\'' => some '\''
  | '"' => some '"'
  | _ => none

/-- Number of digits of a hexadecimal escape. -/
def hexWidth? : Char → Option Nat
  | 'x' => some 2
  | 'u' => some 4
  | 'U' => some 8
  | _ => none

/-- Value of the escape that begins with a backslash and `e`, and the number of characters of `rest`
that belong to it. An escape that means nothing is kept as it is written. -/
def escapeValue (e : Char) (rest : List Char) : List Char × Nat :=
  if e = '\n' then ([], 0)
  else if e = '\r' then ([], if rest.head? = some '\n' then 1 else 0)
  else
    match simpleEscape? e with
    | some c => ([c], 0)
    | none =>
      if isOctalDigit e then
        let more := takeUpTo isOctalDigit 2 rest
        match charOfCode? (numberOf 8 (e :: more)) with
        | some c => ([c], more.length)
        | none => ('\\' :: e :: more, more.length)
      else
        match hexWidth? e with
        | some width =>
          let digits := takeUpTo isHexDigit width rest
          if digits.length = width then
            match charOfCode? (numberOf 16 digits) with
            | some c => ([c], digits.length)
            | none => ('\\' :: e :: digits, digits.length)
          else ('\\' :: e :: digits, digits.length)
        | none => (['\\', e], 0)

/-- The text that a literal's body stands for. -/
def unescape : List Char → List Char
  | [] => []
  | ['\\'] => ['\\']
  | '\\' :: e :: rest =>
    let (value, used) := escapeValue e rest
    value ++ unescape (rest.drop used)
  | c :: rest => c :: unescape rest
termination_by cs => cs.length
decreasing_by all_goals simp; try omega

end SourceAudit.Syntax
