import SourceAudit.Number.Decimal

/-!
Formats: texts with escapes, and with conversions that stand for arguments. A format is used again
as long as it takes arguments and some are left.
-/

namespace SourceAudit.Script

open SourceAudit.Number (Binary64)

/-! ### Escapes -/

def isOctal (c : Char) : Bool := '0' ≤ c && c ≤ '7'

/-- The value of a digit in a base of up to sixteen. -/
def digitValue? (base : Nat) (c : Char) : Option Nat :=
  let n :=
    if c.isDigit then c.toNat - '0'.toNat
    else if 'a' ≤ c && c ≤ 'f' then c.toNat - 'a'.toNat + 10
    else if 'A' ≤ c && c ≤ 'F' then c.toNat - 'A'.toNat + 10
    else 16
  if n < base then some n else none

/-- The number that digits spell. -/
def numberOf (base : Nat) (digits : List Char) : Nat :=
  digits.foldl (fun n c => n * base + (digitValue? base c).getD 0) 0

/-- The character that a letter after a backslash stands for. -/
def escapeLetter? (c : Char) : Option Char :=
  if c = 'n' then some '\n'
  else if c = 't' then some '\t'
  else if c = 'r' then some '\r'
  else if c = 'a' then some '\x07'
  else if c = 'b' then some '\x08'
  else if c = 'f' then some '\x0c'
  else if c = 'v' then some '\x0b'
  else if c = '\\' then some '\\'
  else none

/-- Reads an escape after its backslash: up to three octal digits, or a letter. A backslash before
anything else stands for itself. -/
def readEscape (cs : List Char) : Char × List Char :=
  let digits := (cs.take 3).takeWhile isOctal
  if !digits.isEmpty then (Char.ofNat (numberOf 8 digits % 256), cs.drop digits.length)
  else
    match cs with
    | [] => ('\\', [])
    | c :: rest =>
      match escapeLetter? c with
      | some e => (e, rest)
      | none => ('\\', cs)

/-- A text with its escapes replaced, and whether it has been cut off at a `\c`. An octal number may
have a zero before its three digits. -/
def unescape : Nat → List Char → List Char × Bool
  | 0, _ => ([], false)
  | _, [] => ([], false)
  | fuel + 1, c :: cs =>
    if c ≠ '\\' then
      let (out, cut) := unescape fuel cs
      (c :: out, cut)
    else if cs.head? = some 'c' then ([], true)
    else
      let cs := match cs with
        | '0' :: d :: rest => if isOctal d then d :: rest else cs
        | _ => cs
      let (e, rest) := readEscape cs
      let (out, cut) := unescape fuel rest
      (e :: out, cut)

/-! ### Arguments as numbers -/

/-- An integer at the front of an argument, in the base that its beginning tells, and whether it is
all of the argument. A character after a quote stands for its number. -/
def integerOf (arg : List Char) : Int × Bool :=
  match arg with
  | [] => (0, true)
  | '"' :: cs | '\'' :: cs => (((cs.head?.map Char.toNat).getD 0 : Nat), true)
  | _ =>
    let cs := arg.dropWhile fun c => c = ' ' || c = '\t' || c = '\n'
    let (negative, cs) := match cs with
      | '-' :: cs => (true, cs)
      | '+' :: cs => (false, cs)
      | cs => (false, cs)
    let (base, cs) := match cs with
      | '0' :: 'x' :: cs | '0' :: 'X' :: cs => (16, cs)
      | '0' :: cs => (8, '0' :: cs)
      | cs => (10, cs)
    let digits := cs.takeWhile fun c => (digitValue? base c).isSome
    let n : Int := numberOf base digits
    (if negative then -n else n, !digits.isEmpty && digits.length = cs.length)

/-- A decimal number at the front of an argument, and whether it is all of the argument. -/
def decimalOf (arg : List Char) : Binary64 × Bool :=
  let (negative, cs) := match arg with
    | '-' :: cs => (true, cs)
    | '+' :: cs => (false, cs)
    | cs => (false, cs)
  let whole := cs.takeWhile Char.isDigit
  let cs := cs.drop whole.length
  let fraction := match cs with
    | '.' :: cs => cs.takeWhile Char.isDigit
    | _ => []
  let rest := match cs with
    | '.' :: cs => cs.drop fraction.length
    | cs => cs
  (.ofRatio negative (numberOf 10 (whole ++ fraction)) (Nat.pow 10 fraction.length),
    arg.isEmpty || (rest.isEmpty && !(whole ++ fraction).isEmpty))

/-! ### Conversions -/

/-- How a conversion is laid out. -/
structure Layout where
  flags : List Char := []
  width : Nat := 0
  precision : Option Nat := none
  deriving BEq, DecidableEq, Inhabited

namespace Layout

def has (l : Layout) (flag : Char) : Bool := l.flags.contains flag

/-- Fills up to the width: behind the text if so flagged, else before it. -/
def pad (l : Layout) (text : List Char) : List Char :=
  let fill := List.replicate (l.width - text.length) ' '
  if l.has '-' then text ++ fill else fill ++ text

/-- A number with its sign; zeros fill up to the width if so flagged. -/
def number (l : Layout) (sign digits : List Char) : List Char :=
  let digits := List.replicate (l.precision.getD 1 - digits.length) '0' ++ digits
  if l.has '0' && !l.has '-' && l.precision.isNone then
    sign ++ List.replicate (l.width - sign.length - digits.length) '0' ++ digits
  else l.pad (sign ++ digits)

def sign (l : Layout) (negative : Bool) : List Char :=
  if negative then ['-'] else if l.has '+' then ['+'] else if l.has ' ' then [' '] else []

def text (l : Layout) (cs : List Char) : List Char :=
  l.pad (match l.precision with | none => cs | some n => cs.take n)

/-- A number with decimals. -/
def decimal (l : Layout) (x : Binary64) : List Char :=
  let written := (x.fixed (l.precision.getD 6)).toList
  let negative := written.head? = some '-'
  { l with precision := none }.number (l.sign negative) (if negative then written.drop 1 else written)

end Layout

/-- What a format has written. -/
structure Written where
  out : List Char := []
  /-- Arguments that are left. -/
  rest : List (List Char) := []
  /-- Whether an argument was no number. -/
  faulty : Bool := false
  /-- Whether all further output is cut off. -/
  cut : Bool := false
  deriving BEq, DecidableEq, Inhabited

def natDigits (base n : Nat) : List Char := Nat.toDigits base n

/-- A number without a sign, in 64 bits. -/
def unsignedOf (n : Int) : Nat := (n % (1 <<< 64 : Nat)).toNat

/-- What a conversion writes for an argument, or nothing if there is no such conversion. -/
def convert (l : Layout) (letter : Char) (arg : Option (List Char)) : Option Written :=
  let text := arg.getD []
  let (n, whole) := integerOf text
  if letter = 's' then some { out := l.text text }
  else if letter = 'b' then
    let (out, cut) := unescape (text.length + 1) text
    some { out := l.text out, cut }
  else if letter = 'c' then some { out := l.pad [text.headD '\x00'] }
  else if letter = 'd' || letter = 'i' then
    some { out := l.number (l.sign (n < 0)) (natDigits 10 n.natAbs), faulty := !whole }
  else if letter = 'u' then some { out := l.number [] (natDigits 10 (unsignedOf n)), faulty := !whole }
  else if letter = 'o' then some { out := l.number [] (natDigits 8 (unsignedOf n)), faulty := !whole }
  else if letter = 'x' then some { out := l.number [] (natDigits 16 (unsignedOf n)), faulty := !whole }
  else if letter = 'X' then
    some { out := l.number [] ((natDigits 16 (unsignedOf n)).map Char.toUpper), faulty := !whole }
  else if letter = 'f' || letter = 'F' then
    let (x, whole) := decimalOf text
    some { out := l.decimal x, faulty := !whole }
  else none

/-- Reads a number of a layout, which a star takes from the arguments. -/
def readSize (cs : List Char) (args : List (List Char)) :
    List Char × List Char × List (List Char) :=
  match cs with
  | '*' :: cs => (natDigits 10 ((integerOf (args.headD [])).1.toNat), cs, args.tail)
  | _ =>
    let digits := cs.takeWhile Char.isDigit
    (digits, cs.drop digits.length, args)

/-- Reads the layout of a conversion after its percent sign; gives the rest of the format and of the
arguments. -/
def readLayout (cs : List Char) (args : List (List Char)) :
    Layout × List Char × List (List Char) :=
  let flags := cs.takeWhile fun c => c = '#' || c = '-' || c = '+' || c = ' ' || c = '0'
  let (width, cs, args) := readSize (cs.drop flags.length) args
  match cs with
  | '.' :: cs =>
    let (precision, cs, args) := readSize cs args
    (⟨flags, numberOf 10 width, some (numberOf 10 precision)⟩, cs, args)
  | _ => (⟨flags, numberOf 10 width, none⟩, cs, args)

/-- One pass over a format. -/
def formatOnce : Nat → List Char → List (List Char) → Written
  | 0, _, args => { rest := args }
  | _, [], args => { rest := args }
  | fuel + 1, c :: cs, args =>
    if c = '\\' then
      let (e, rest) := readEscape cs
      let w := formatOnce fuel rest args
      { w with out := e :: w.out }
    else if c ≠ '%' then
      let w := formatOnce fuel cs args
      { w with out := c :: w.out }
    else if cs.head? = some '%' then
      let w := formatOnce fuel (cs.drop 1) args
      { w with out := '%' :: w.out }
    else
      let (layout, cs, args) := readLayout cs args
      match cs with
      | [] => { rest := args, faulty := true, cut := true }
      | letter :: cs =>
        match convert layout letter args.head? with
        | none => { rest := args, faulty := true, cut := true }
        | some w =>
          if w.cut then { w with rest := args.tail }
          else
            let v := formatOnce fuel cs args.tail
            { v with out := w.out ++ v.out, faulty := w.faulty || v.faulty }

/-- Passes over a format until the arguments are used up; `more` bounds the number of further
passes. -/
def formatAll (format : List Char) (args : List (List Char)) : Nat → Written
  | 0 => formatOnce (format.length + 1) format args
  | more + 1 =>
    let w := formatOnce (format.length + 1) format args
    if w.cut || w.rest.isEmpty || w.rest.length = args.length then w
    else
      let v := formatAll format w.rest more
      { v with out := w.out ++ v.out, faulty := w.faulty || v.faulty }

/-- What `printf` writes. -/
def printf (format : List Char) (args : List (List Char)) : Written :=
  formatAll format args args.length

/-! ### Plain output -/

/-- The words with blanks between them. -/
def joinBlank : List (List Char) → List Char
  | [] => []
  | [w] => w
  | w :: ws => w ++ ' ' :: joinBlank ws

/-- What `echo` writes. Where escapes count by default there is only the option that leaves out the
line end; elsewhere an option makes them count. -/
def echo (escapes : Bool) (args : List (List Char)) : List Char :=
  let isOption (w : List Char) : Bool :=
    if escapes then w = "-n".toList
    else w.length > 1 && w.head? = some '-' && w.tail.all fun c => c = 'n' || c = 'e' || c = 'E'
  let options := if escapes then (args.take 1).takeWhile isOption else args.takeWhile isOption
  let letters := options.flatMap List.tail
  let text := joinBlank (args.drop options.length)
  let last := if letters.contains 'n' then [] else ['\n']
  let escapes := escapes || ((letters.filter (· ≠ 'n')).getLast? = some 'e')
  if !escapes then text ++ last
  else
    let (out, cut) := unescape (text.length + 1) text
    if cut then out else out ++ last

end SourceAudit.Script
