/-!
The tokens of a script: words, operators, and redirections. A script is a list of bytes, and a
character here stands for the byte of its number. Quotes and backslashes take the meaning of the
characters they protect; what follows a `$` or stands between backquotes is kept as it is written
until the word is used.
-/

namespace SourceAudit.Script

/-- A piece of a word. What is quoted is neither divided at blanks nor read as a pattern. -/
inductive Piece where
  | text (quoted : Bool) (cs : List Char)
  /-- A parameter; the body is its name, and what follows the name in braces. -/
  | parameter (quoted : Bool) (body : List Char)
  /-- What a script writes. -/
  | output (quoted : Bool) (script : List Char)
  /-- The value of a formula. -/
  | formula (quoted : Bool) (cs : List Char)
  deriving BEq, DecidableEq, Inhabited

abbrev Word := List Piece

inductive RedirectKind where
  /-- Input from a file. -/
  | input
  /-- Output to a file, which is emptied before. -/
  | output
  /-- Output to the end of a file. -/
  | append
  /-- The same stream as that of another number. -/
  | duplicate
  /-- Input from the text itself. -/
  | here
  deriving BEq, DecidableEq, Inhabited

/-- A redirection of the stream with the given number. -/
structure Redirect where
  stream : Nat
  kind : RedirectKind
  target : Word
  deriving BEq, DecidableEq, Inhabited

inductive Token where
  | word (w : Word)
  | operator (text : String)
  | redirect (r : Redirect)
  /-- A quote that is not closed. -/
  | unclosed
  deriving BEq, DecidableEq, Inhabited

/-! ### What is kept as it is written -/

/-- Which characters have a meaning at a position. -/
inductive Quoting where
  | plain
  | single
  | double
  deriving BEq, DecidableEq, Inhabited

/-- The text up to the bracket that closes one already opened, and the text after it; brackets in
quotes do not count. `done` is the text before, nearest first. -/
def takeNested (opening closing : Char) (depth : Nat) (q : Quoting) (done : List Char) :
    List Char → Option (List Char × List Char)
  | [] => none
  | '\\' :: c :: cs =>
    if q = .single then
      takeNested opening closing depth (if c = '\'' then .plain else .single) (c :: '\\' :: done) cs
    else takeNested opening closing depth q (c :: '\\' :: done) cs
  | c :: cs =>
    match q with
    | .single =>
      takeNested opening closing depth (if c = '\'' then .plain else .single) (c :: done) cs
    | .double =>
      takeNested opening closing depth (if c = '"' then .plain else .double) (c :: done) cs
    | .plain =>
      if c = '\'' then takeNested opening closing depth .single (c :: done) cs
      else if c = '"' then takeNested opening closing depth .double (c :: done) cs
      else if c = opening then takeNested opening closing (depth + 1) .plain (c :: done) cs
      else if c ≠ closing then takeNested opening closing depth .plain (c :: done) cs
      else if depth = 0 then some (done.reverse, cs)
      else takeNested opening closing (depth - 1) .plain (c :: done) cs

/-- The script up to a backquote, and the text after it. -/
def takeBackquoted (done : List Char) : List Char → Option (List Char × List Char)
  | [] => none
  | '\\' :: c :: cs =>
    if c = '\\' || c = '$' || c = '\x60' then takeBackquoted (c :: done) cs
    else takeBackquoted (c :: '\\' :: done) cs
  | c :: cs => if c = '\x60' then some (done.reverse, cs) else takeBackquoted (c :: done) cs

def isNameStart (c : Char) : Bool := c.isAlpha || c = '_'

def isNamePart (c : Char) : Bool := isNameStart c || c.isDigit

/-- A text that can name a variable. -/
def isName : List Char → Bool
  | [] => false
  | c :: cs => isNameStart c && cs.all isNamePart

/-- Characters that name a parameter on their own. -/
def isSpecialParameter (c : Char) : Bool :=
  c.isDigit || c = '@' || c = '*' || c = '#' || c = '?' || c = '$' || c = '!' || c = '-'

/-- Reads what follows a `$`. -/
def readDollar (quoted : Bool) : List Char → Option (Piece × List Char)
  | '(' :: cs =>
    (takeNested '(' ')' 0 .plain [] cs).map fun (body, rest) =>
      match body, body.getLast? with
      | '(' :: inner, some ')' => (.formula quoted inner.dropLast, rest)
      | _, _ => (.output quoted body, rest)
  | '\x7b' :: cs =>
    (takeNested '\x7b' '\x7d' 0 .plain [] cs).map fun (body, rest) => (.parameter quoted body, rest)
  | c :: cs =>
    if isNameStart c then
      some (.parameter quoted (c :: cs.takeWhile isNamePart), cs.dropWhile isNamePart)
    else if isSpecialParameter c then some (.parameter quoted [c], cs)
    else some (.text quoted ['$'], c :: cs)
  | [] => some (.text quoted ['$'], [])

/-! ### Words -/

/-- Reads text in double quotes up to the closing one, or to the end if none is wanted; `done` are
the pieces before, nearest first. -/
def readDouble (closed : Bool) : Nat → List Piece → List Char → Option (List Piece × List Char)
  | 0, _, _ => none
  | _, done, [] => if closed then none else some (done, [])
  | fuel + 1, done, c :: cs =>
    if c = '"' && closed then some (done, cs)
    else if c = '\\' then
      match cs with
      | [] => readDouble closed fuel (.text true ['\\'] :: done) []
      | e :: rest =>
        if e = '\n' then readDouble closed fuel done rest
        else if e = '$' || e = '\x60' || e = '\\' || (e = '"' && closed) then
          readDouble closed fuel (.text true [e] :: done) rest
        else readDouble closed fuel (.text true ['\\', e] :: done) rest
    else if c = '$' then
      match readDollar true cs with
      | none => none
      | some (p, rest) => readDouble closed fuel (p :: done) rest
    else if c = '\x60' then
      match takeBackquoted [] cs with
      | none => none
      | some (script, rest) => readDouble closed fuel (.output true script :: done) rest
    else readDouble closed fuel (.text true [c] :: done) cs

/-- A character that ends a word. -/
def endsWord (c : Char) : Bool :=
  c = ' ' || c = '\t' || c = '\n' || c = ';' || c = '&' || c = '|' || c = '<' || c = '>' || c = '('
    || c = ')'

/-- Reads a word up to a character that ends it; `done` are the pieces before, nearest first. -/
def readWord : Nat → List Piece → List Char → Option (Word × List Char)
  | 0, _, _ => none
  | _, done, [] => some (done.reverse, [])
  | fuel + 1, done, c :: cs =>
    if endsWord c then some (done.reverse, c :: cs)
    else if c = '\'' then
      let inner := cs.takeWhile (· ≠ '\'')
      match cs.drop inner.length with
      | [] => none
      | _ :: rest => readWord fuel (.text true inner :: done) rest
    else if c = '"' then
      match readDouble true fuel (.text true [] :: done) cs with
      | none => none
      | some (done, rest) => readWord fuel done rest
    else if c = '\\' then
      match cs with
      | [] => readWord fuel (.text true ['\\'] :: done) []
      | e :: rest =>
        readWord fuel (if e = '\n' then done else .text true [e] :: done) rest
    else if c = '$' then
      match readDollar false cs with
      | none => none
      | some (p, rest) => readWord fuel (p :: done) rest
    else if c = '\x60' then
      match takeBackquoted [] cs with
      | none => none
      | some (script, rest) => readWord fuel (.output false script :: done) rest
    else readWord fuel (.text false [c] :: done) cs

/-- The text of a word that has no parameters, without its quotes. -/
def Word.literal (w : Word) : List Char :=
  w.flatMap fun
    | .text _ cs => cs
    | .parameter _ body => '$' :: body
    | .output _ script => script
    | .formula _ cs => cs

def Piece.isQuoted : Piece → Bool
  | .text q _ | .parameter q _ | .output q _ | .formula q _ => q

/-! ### Tokens -/

/-- A text to be read after the current line: the place of its token, the line that ends it, whether
parameters stand for their values in it, and whether tabs at the start of lines count. -/
structure Pending where
  place : Nat
  last : List Char
  literal : Bool
  keepTabs : Bool

structure Reader where
  tokens : Array Token := #[]
  pending : List Pending := []

/-- Reads lines up to the given one. -/
def takeHere (p : Pending) : Nat → List Char → List Char → List Char × List Char
  | 0, done, cs => (done, cs)
  | fuel + 1, done, cs =>
    if cs.isEmpty then (done, [])
    else
      let cs := if p.keepTabs then cs else cs.dropWhile (· = '\t')
      let line := cs.takeWhile (· ≠ '\n')
      let rest := (cs.drop line.length).drop 1
      if line = p.last then (done, rest) else takeHere p fuel (done ++ line ++ ['\n']) rest

/-- Puts the pending texts into their tokens; gives the rest after them. -/
def Reader.readPending (r : Reader) (cs : List Char) : Reader × List Char :=
  let (tokens, rest) := r.pending.foldl (fun (tokens, cs) p =>
    let (body, rest) := takeHere p (cs.length + 1) [] cs
    let word : Word :=
      if p.literal then [.text true body]
      else
        match readDouble false (body.length + 1) [] body with
        | none => [.text true body]
        | some (done, _) => done.reverse
    let tokens : Array Token := tokens.modify p.place fun
      | .redirect d => .redirect { d with target := word }
      | t => t
    (tokens, rest)) (r.tokens, cs)
  (⟨tokens, []⟩, rest)

/-- The operators, longest first. -/
def operators : List String := ["&&", "||", ";;", "&", "|", ";", "(", ")"]

/-- The marks of redirections, longest first, with the stream that they redirect. -/
def redirectMarks : List (String × RedirectKind × Nat) :=
  [("<<-", .here, 0), ("<<", .here, 0), ("<&", .duplicate, 0), ("<>", .input, 0), ("<", .input, 0),
    (">>", .append, 1), (">&", .duplicate, 1), (">|", .output, 1), (">", .output, 1)]

def Reader.add (r : Reader) (t : Token) : Reader := { r with tokens := r.tokens.push t }

/-- Reads a redirection after its mark. -/
def Reader.addRedirect (r : Reader) (mark : String) (kind : RedirectKind) (stream : Nat)
    (target : Word) : Reader :=
  let pending :=
    if kind = .here then
      r.pending ++ [⟨r.tokens.size, target.literal, target.any Piece.isQuoted, mark ≠ "<<-"⟩]
    else r.pending
  ⟨r.tokens.push (.redirect ⟨stream, kind, target⟩), pending⟩

def isBlank (c : Char) : Bool := c = ' ' || c = '\t'

/-- The mark of a redirection at the front of a text, after the number of a stream. -/
def readMark? (cs : List Char) : Option (String × RedirectKind × Nat × List Char) :=
  let digits := cs.takeWhile Char.isDigit
  let cs := cs.drop digits.length
  (redirectMarks.find? fun m => m.1.toList.isPrefixOf cs).bind fun (mark, kind, usual) =>
    match digits with
    | [] => some (mark, kind, usual, cs.drop mark.length)
    | [d] => some (mark, kind, d.toNat - '0'.toNat, cs.drop mark.length)
    | _ => none

/-- Reads the tokens of a text. -/
def readTokens : Nat → Reader → List Char → Reader
  | 0, r, _ => r
  | _, r, [] => r
  | fuel + 1, r, c :: cs =>
    if isBlank c then readTokens fuel r cs
    else if c = '\\' && cs.head? = some '\n' then readTokens fuel r (cs.drop 1)
    else if c = '#' then readTokens fuel r (cs.dropWhile (· ≠ '\n'))
    else if c = '\n' then
      let (r, rest) := (r.add (.operator "\n")).readPending cs
      readTokens fuel r rest
    else
      match readMark? (c :: cs) with
      | some (mark, kind, stream, rest) =>
        match readWord (rest.length + 1) [] (rest.dropWhile isBlank) with
        | none => r.add .unclosed
        | some (target, rest) => readTokens fuel (r.addRedirect mark kind stream target) rest
      | none =>
        match operators.find? fun o => o.toList.isPrefixOf (c :: cs) with
        | some o => readTokens fuel (r.add (.operator o)) ((c :: cs).drop o.length)
        | none =>
          match readWord (cs.length + 2) [] (c :: cs) with
          | none => r.add .unclosed
          | some (w, rest) => readTokens fuel (r.add (.word w)) rest

/-- The tokens of a script. -/
def tokens (script : List Char) : List Token :=
  (readTokens (script.length + 1) {} script).tokens.toList

end SourceAudit.Script
