import SourceAudit.Script.Formula
import SourceAudit.Script.Pattern

/-!
The fields that words stand for: parameters, scripts and formulas are replaced by what they give, what
is not quoted is divided at blanks, and patterns are replaced by the paths they match.
-/

namespace SourceAudit.Script

/-- A part of an expanded word. -/
inductive Fragment where
  /-- Characters that stay together, and whether quotes protect them. -/
  | solid (quoted : Bool) (cs : List Char)
  /-- Characters to be divided. -/
  | loose (cs : List Char)
  /-- A new field begins. -/
  | next
  deriving BEq, DecidableEq, Inhabited

/-- Runs a script and gives what it writes. -/
abbrev Substitute := Shell → List Char → Shell × List Char

/-! ### Parameters -/

/-- What happens to the value of a parameter. -/
structure Change where
  /-- Whether an empty value counts as one that is not set. -/
  colon : Bool
  mark : Char
  /-- Whether the mark is doubled. -/
  double : Bool
  word : List Char

/-- Splits the body of a parameter into its name and what happens to its value; a length is asked for
with a `#` in front. -/
def readParameter (body : List Char) : Bool × List Char × Option Change :=
  let (length, body) := match body with
    | '#' :: c :: cs => if c = '-' || c = ':' || c = '=' || c = '%' then (false, body) else (true, c :: cs)
    | _ => (false, body)
  let name := match body with
    | [] => []
    | c :: cs =>
      if isNameStart c then c :: cs.takeWhile isNamePart
      else if c.isDigit then c :: cs.takeWhile Char.isDigit
      else [c]
  match body.drop name.length with
  | [] => (length, name, none)
  | ':' :: m :: word => (length, name, some ⟨true, m, false, word⟩)
  | m :: m' :: word =>
    if m = m' && (m = '#' || m = '%') then (length, name, some ⟨false, m, true, word⟩)
    else (length, name, some ⟨false, m, false, m' :: word⟩)
  | [m] => (length, name, some ⟨false, m, false, []⟩)

/-- The word behind the mark of a parameter. -/
def innerWord (quoted : Bool) (cs : List Char) : Word :=
  if quoted then
    match readDouble false (cs.length + 1) [] cs with
    | some (done, _) => done.reverse
    | none => [.text true cs]
  else
    (List.range (cs.length + 1)).foldl (fun (acc : Word × List Char) _ =>
      match acc.2 with
      | [] => acc
      | c :: rest =>
        match readWord (acc.2.length + 1) [] acc.2 with
        | some ([], _) => (acc.1 ++ [.text false [c]], rest)
        | some (w, rest) => (acc.1 ++ w, rest)
        | none => (acc.1 ++ [.text true acc.2], [])) (([] : Word), cs) |>.1

/-- Fragments of which all that is not quoted is divided. -/
def loosen (fs : List Fragment) : List Fragment :=
  fs.map fun
    | .solid false cs => .loose cs
    | f => f

/-- All characters of fragments, a blank between fields. -/
def plainText (fs : List Fragment) : List Char :=
  fs.flatMap fun
    | .solid _ cs => cs
    | .loose cs => cs
    | .next => [' ']

/-- Fragments as a pattern. -/
def patternOf (fs : List Fragment) : List PatternChar :=
  fs.flatMap fun
    | .solid quoted cs => cs.map (·, quoted)
    | .loose cs => cs.map (·, false)
    | .next => [(' ', true)]

/-- The arguments as fragments. Between quotes each is a field of its own, unless they are joined. -/
def argumentFragments (s : Shell) (quoted : Bool) (name : Char) : List Fragment :=
  if quoted && name = '*' then [.solid true ((s.separators.take 1).intercalate s.arguments)]
  else
    match s.arguments with
    | [] => []
    | a :: rest =>
      let part (cs : List Char) : Fragment := if quoted then .solid true cs else .loose cs
      part a :: rest.flatMap fun b => [.next, part b]

mutual

/-- Expands a piece of a word. -/
def expandPiece (run : Substitute) : Nat → Shell → Piece → Shell × List Fragment
  | 0, s, _ => (s, [])
  | fuel + 1, s, p =>
    let part (quoted : Bool) (cs : List Char) : List Fragment :=
      if quoted then [.solid true cs] else [.loose cs]
    match p with
    | .text quoted cs => (s, [.solid quoted cs])
    | .output quoted script =>
      let (s, text) := run s script
      (s, part quoted (text.reverse.dropWhile (· = '\n')).reverse)
    | .formula quoted cs =>
      let (s, fs) := expandPieces run fuel s (innerWord true cs)
      match formulaValue? s (plainText fs) with
      | some n => (s, part quoted (intText n))
      | none => ({ s.complain "arithmetic expression".toList with broken := true }, [])
    | .parameter quoted body =>
      let (length, name, change) := readParameter body
      let value := s.parameter? name
      if length then (s, part quoted (Nat.toDigits 10 (value.getD []).length))
      else
        match change with
        | none =>
          match name with
          | ['@'] => (s, argumentFragments s quoted '@')
          | ['*'] => (s, argumentFragments s quoted '*')
          | _ =>
            if value.isNone && s.options.refuseUnset && name ≠ ['!'] then
              ({ s.complain (name ++ ": parameter not set".toList) with broken := true }, [])
            else (s, part quoted (value.getD []))
        | some c => expandChange run fuel s quoted name value c

/-- Expands a parameter with what happens to its value. -/
def expandChange (run : Substitute) :
    Nat → Shell → Bool → List Char → Option (List Char) → Change → Shell × List Fragment
  | 0, s, _, _, _, _ => (s, [])
  | fuel + 1, s, quoted, name, value, c =>
    let part (cs : List Char) : List Fragment := if quoted then [.solid true cs] else [.loose cs]
    let given := if c.colon then value.any (!·.isEmpty) else value.isSome
    let word := innerWord quoted c.word
    if c.mark = '-' then
      if given then (s, part (value.getD []))
      else
        let (s, fs) := expandPieces run fuel s word
        (s, loosen fs)
    else if c.mark = '+' then
      if given then
        let (s, fs) := expandPieces run fuel s word
        (s, loosen fs)
      else (s, part [])
    else if c.mark = '=' then
      if given then (s, part (value.getD []))
      else
        let (s, fs) := expandPieces run fuel s word
        (s.set name (plainText fs), part (plainText fs))
    else if c.mark = '?' then
      if given then (s, part (value.getD []))
      else
        let (s, fs) := expandPieces run fuel s word
        let text := if c.word.isEmpty then "parameter not set".toList else plainText fs
        ({ s.complain (name ++ ": ".toList ++ text) with broken := true }, [])
    else
      let (s, fs) := expandPieces run fuel s (innerWord false c.word)
      let pattern := patternOf fs
      let value := value.getD []
      if c.mark = '#' then (s, part (removeStart pattern c.double value))
      else if c.mark = '%' then (s, part (removeEnd pattern c.double value))
      else ({ s.complain "Bad substitution".toList with broken := true }, [])

/-- Expands the pieces of a word. -/
def expandPieces (run : Substitute) : Nat → Shell → Word → Shell × List Fragment
  | 0, s, _ => (s, [])
  | _ + 1, s, [] => (s, [])
  | fuel + 1, s, p :: ps =>
    let (s, fs) := expandPiece run fuel s p
    let (s, more) := expandPieces run fuel s ps
    (s, fs ++ more)

end

/-- Enough for every word of a script and the words inside it. -/
def expandFuel (w : Word) : Nat := w.length + 100000

/-! ### Fields -/

/-- Fields that are being put together; the current one may not have begun. -/
structure Fields where
  done : List (List PatternChar) := []
  current : Option (List PatternChar) := none

namespace Fields

def close (f : Fields) : Fields :=
  match f.current with
  | none => f
  | some c => ⟨f.done ++ [c], none⟩

def add (f : Fields) (cs : List PatternChar) : Fields :=
  { f with current := some (f.current.getD [] ++ cs) }

/-- Adds a character that may divide fields. A blank ends a field; any other separator also makes one
where there is none. -/
def addLoose (separators : List Char) (f : Fields) (c : Char) : Fields :=
  if !separators.contains c then f.add [(c, false)]
  else if c = ' ' || c = '\t' || c = '\n' then f.close
  else { f with current := some (f.current.getD []) }.close

def addFragment (separators : List Char) (f : Fields) : Fragment → Fields
  | .solid quoted cs => f.add (cs.map (·, quoted))
  | .loose cs => cs.foldl (addLoose separators) f
  | .next => { f.close with current := none }

end Fields

/-- A word that is nothing but all arguments in quotes. -/
def isAllArguments : Word → Bool
  | [.text true [], .parameter true ['@']] => true
  | _ => false

/-- The fields of a word. -/
def expandWord (run : Substitute) (s : Shell) (w : Word) : Shell × List (List Char) :=
  if isAllArguments w then (s, s.arguments)
  else
    let (s, fs) := expandPieces run (expandFuel w) s w
    let fields := (fs.foldl (Fields.addFragment s.separators) {}).close.done
    (s, fields.flatMap (pathsMatching s))

/-- The fields of several words. -/
def expandWords (run : Substitute) (s : Shell) : List Word → Shell × List (List Char)
  | [] => (s, [])
  | w :: ws =>
    let (s, fields) := expandWord run s w
    let (s, more) := expandWords run s ws
    (s, fields ++ more)

/-- The text of a word where it is not divided. -/
def expandText (run : Substitute) (s : Shell) (w : Word) : Shell × List Char :=
  let (s, fs) := expandPieces run (expandFuel w) s w
  (s, plainText fs)

/-- A word as a pattern. -/
def expandPattern (run : Substitute) (s : Shell) (w : Word) : Shell × List PatternChar :=
  let (s, fs) := expandPieces run (expandFuel w) s w
  (s, patternOf fs)

end SourceAudit.Script
