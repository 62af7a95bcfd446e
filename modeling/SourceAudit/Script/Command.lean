import SourceAudit.Script.Token

/-!
The commands of a script, and how they are made up of tokens. A script is read one complete command
at a time, up to a line end, so that what stands before a mistake is still run.
-/

namespace SourceAudit.Script

inductive Command where
  /-- Variables that are set, a name with arguments, and redirections. -/
  | simple (settings : List (List Char × Word)) (words : List Word) (redirects : List Redirect)
  /-- Commands of which each reads what the one before it writes. -/
  | pipeline (parts : List Command)
  /-- Success if the command fails. -/
  | not (c : Command)
  | and (a b : Command)
  | or (a b : Command)
  | sequence (cs : List Command)
  | branch (condition yes no : Command)
  /-- Runs the body as long as the condition succeeds, or fails if `untilSuccess` is set. -/
  | loop (untilSuccess : Bool) (condition body : Command)
  /-- Runs the body for each word; without words, for each argument. -/
  | each (name : List Char) (words : Option (List Word)) (body : Command)
  /-- Runs the body of the first case with a pattern that the word matches. -/
  | choose (word : Word) (cases : List (List Word × Command))
  /-- What it does to variables does not last. -/
  | apart (body : Command)
  | define (name : List Char) (body : Command)
  | redirected (body : Command) (redirects : List Redirect)
  deriving Inhabited

/-- The command that does nothing. -/
def Command.nothing : Command := .sequence []

/-! ### Words with a meaning -/

/-- The word if all of it is plain text. -/
def Token.plain? : Token → Option String
  | .word w =>
    if w.all fun | .text false _ => true | _ => false then some (String.ofList w.literal) else none
  | _ => none

/-- The rest after the given plain word. -/
def expect? (word : String) : List Token → Option (List Token)
  | t :: ts => if t.plain? = some word then some ts else none
  | [] => none

/-- The rest after the given operator. -/
def expectOperator? (text : String) : List Token → Option (List Token)
  | t :: ts => if t = .operator text then some ts else none
  | [] => none

def skipLines (ts : List Token) : List Token := ts.dropWhile (· = .operator "\n")

/-- Words that end a list of commands. -/
def closingWords : List String := ["then", "else", "elif", "fi", "do", "done", "esac", "\x7d"]

/-- Whether no command begins here. -/
def atEnd : List Token → Bool
  | [] => true
  | .operator ")" :: _ | .operator ";;" :: _ => true
  | t :: _ => t.plain?.any closingWords.contains

/-- Splits a word that sets a variable. -/
def setting? (w : Word) : Option (List Char × Word) :=
  let letters := w.takeWhile fun | .text false [c] => isNamePart c | _ => false
  match w.drop letters.length with
  | .text false ['='] :: value =>
    let name := Word.literal letters
    if isName name then some (name, value) else none
  | _ => none

/-- The redirections at the front, and the rest. -/
def takeRedirects : List Token → List Redirect × List Token
  | .redirect r :: ts =>
    let (rs, rest) := takeRedirects ts
    (r :: rs, rest)
  | ts => ([], ts)

/-- Reads a simple command. -/
def readSimple (settings : List (List Char × Word)) (words : List Word) (rs : List Redirect) :
    List Token → Command × List Token
  | .redirect r :: ts => readSimple settings words (rs ++ [r]) ts
  | .word w :: ts =>
    match words, setting? w with
    | [], some s => readSimple (settings ++ [s]) words rs ts
    | _, _ => readSimple settings (words ++ [w]) rs ts
  | ts => (.simple settings words rs, ts)

/-- The words up to the end of the line or a semicolon. -/
def takeWords : List Token → List Word × List Token
  | .word w :: ts =>
    let (ws, rest) := takeWords ts
    (w :: ws, rest)
  | ts => ([], ts)

/-- The patterns of a case, up to the bracket that ends them. -/
def takePatterns : List Token → Option (List Word × List Token)
  | .word w :: .operator "|" :: ts => (takePatterns ts).map fun (ws, rest) => (w :: ws, rest)
  | .word w :: .operator ")" :: ts => some ([w], ts)
  | _ => none

/-- Steps over a semicolon, an ampersand or a line end. -/
def skipSeparator : List Token → List Token
  | .operator ";" :: ts | .operator "&" :: ts => skipLines ts
  | ts => skipLines ts

mutual

/-- Reads commands up to a token that begins none. -/
def readList : Nat → List Command → List Token → Option (Command × List Token)
  | 0, _, _ => none
  | fuel + 1, done, ts =>
    let ts := skipLines ts
    if atEnd ts then some (.sequence done.reverse, ts)
    else
      match readAndOr fuel ts with
      | none => none
      | some (c, rest) =>
        match rest with
        | .operator ";" :: _ | .operator "&" :: _ | .operator "\n" :: _ =>
          readList fuel (c :: done) (skipSeparator rest)
        | _ => if atEnd rest then some (.sequence (c :: done).reverse, rest) else none

/-- Reads commands that depend on each other. -/
def readAndOr : Nat → List Token → Option (Command × List Token)
  | 0, _ => none
  | fuel + 1, ts =>
    match readPipeline fuel ts with
    | none => none
    | some (c, rest) => readAndOrRest fuel c rest

def readAndOrRest : Nat → Command → List Token → Option (Command × List Token)
  | 0, _, _ => none
  | fuel + 1, c, .operator "&&" :: ts =>
    (readPipeline fuel (skipLines ts)).bind fun (e, rest) => readAndOrRest fuel (.and c e) rest
  | fuel + 1, c, .operator "||" :: ts =>
    (readPipeline fuel (skipLines ts)).bind fun (e, rest) => readAndOrRest fuel (.or c e) rest
  | _ + 1, c, ts => some (c, ts)

/-- Reads commands with bars between them. -/
def readPipeline : Nat → List Token → Option (Command × List Token)
  | 0, _ => none
  | fuel + 1, ts =>
    match expect? "!" ts with
    | some ts => (readPipeline fuel ts).map fun (c, rest) => (.not c, rest)
    | none =>
      (readParts fuel ts).map fun (parts, rest) =>
        match parts with
        | [c] => (c, rest)
        | _ => (.pipeline parts, rest)

def readParts : Nat → List Token → Option (List Command × List Token)
  | 0, _ => none
  | fuel + 1, ts =>
    match readCommand fuel ts with
    | none => none
    | some (c, .operator "|" :: rest) =>
      (readParts fuel (skipLines rest)).map fun (parts, rest) => (c :: parts, rest)
    | some (c, rest) => some ([c], rest)

/-- Reads a command and the redirections that hold for all of it. -/
def readCommand : Nat → List Token → Option (Command × List Token)
  | 0, _ => none
  | fuel + 1, ts =>
    match ts with
    | .word name :: .operator "(" :: .operator ")" :: rest =>
      (readCommand fuel (skipLines rest)).map fun (body, rest) =>
        (.define name.literal body, rest)
    | _ =>
      match readCompound fuel ts with
      | some (some (c, rest)) =>
        let (rs, rest) := takeRedirects rest
        some (if rs.isEmpty then c else .redirected c rs, rest)
      | some none => none
      | none =>
        if atEnd ts then none
        else
          match readSimple [] [] [] ts with
          | (.simple [] [] [], _) => none
          | (c, rest) => some (c, rest)

/-- Reads a command that begins with a word of its own or a bracket; `some none` if it is broken off,
and nothing if there is none. -/
def readCompound : Nat → List Token → Option (Option (Command × List Token))
  | 0, _ => none
  | fuel + 1, ts =>
    match ts with
    | [] => none
    | .operator "(" :: rest =>
      some do
        let (body, rest) ← readList fuel [] rest
        return (.apart body, ← expectOperator? ")" rest)
    | t :: rest =>
      match t.plain? with
      | some "\x7b" =>
        some do
          let (body, rest) ← readList fuel [] rest
          return (body, ← expect? "\x7d" rest)
      | some "if" => some (readBranch fuel rest)
      | some "while" => some (readLoop fuel false rest)
      | some "until" => some (readLoop fuel true rest)
      | some "for" => some (readEach fuel rest)
      | some "case" => some (readChoice fuel rest)
      | _ => none

/-- Reads a condition and what follows it. -/
def readBranch : Nat → List Token → Option (Command × List Token)
  | 0, _ => none
  | fuel + 1, ts => do
    let (condition, rest) ← readList fuel [] ts
    let (yes, rest) ← readList fuel [] (← expect? "then" rest)
    match expect? "elif" rest with
    | some rest =>
      let (no, rest) ← readBranch fuel rest
      return (.branch condition yes no, rest)
    | none =>
      match expect? "else" rest with
      | some rest =>
        let (no, rest) ← readList fuel [] rest
        return (.branch condition yes no, ← expect? "fi" rest)
      | none => return (.branch condition yes .nothing, ← expect? "fi" rest)

def readBody : Nat → List Token → Option (Command × List Token)
  | 0, _ => none
  | fuel + 1, ts => do
    let (body, rest) ← readList fuel [] (← expect? "do" (skipSeparator ts))
    return (body, ← expect? "done" rest)

def readLoop : Nat → Bool → List Token → Option (Command × List Token)
  | 0, _, _ => none
  | fuel + 1, untilSuccess, ts => do
    let (condition, rest) ← readList fuel [] ts
    let (body, rest) ← readBody fuel rest
    return (.loop untilSuccess condition body, rest)

def readEach : Nat → List Token → Option (Command × List Token)
  | 0, _ => none
  | fuel + 1, ts =>
    match ts with
    | .word name :: rest =>
      match expect? "in" (skipLines rest) with
      | some rest => do
        let (words, rest) := takeWords rest
        let (body, rest) ← readBody fuel rest
        return (.each name.literal (some words) body, rest)
      | none => do
        let (body, rest) ← readBody fuel rest
        return (.each name.literal none body, rest)
    | _ => none

def readChoice : Nat → List Token → Option (Command × List Token)
  | 0, _ => none
  | fuel + 1, ts =>
    match ts with
    | .word w :: rest => do
      let (cases, rest) ← readCases fuel (skipLines (← expect? "in" (skipLines rest)))
      return (.choose w cases, rest)
    | _ => none

def readCases : Nat → List Token → Option (List (List Word × Command) × List Token)
  | 0, _ => none
  | fuel + 1, ts =>
    match expect? "esac" ts with
    | some rest => some ([], rest)
    | none => do
      let (patterns, rest) ← takePatterns ((expectOperator? "(" ts).getD ts)
      let (body, rest) ← readList fuel [] rest
      match expectOperator? ";;" rest with
      | some rest =>
        let (cases, rest) ← readCases fuel (skipLines rest)
        return ((patterns, body) :: cases, rest)
      | none => return ([(patterns, body)], ← expect? "esac" rest)

end

/-- What comes next in a script. -/
inductive Next where
  | command (c : Command) (rest : List Token)
  | done
  | malformed

/-- Commands on one line, with semicolons between them. -/
def readLine : Nat → List Command → List Token → Next
  | 0, _, _ => .malformed
  | fuel + 1, done, ts =>
    match readAndOr (10 * ts.length + 10) ts with
    | none => .malformed
    | some (c, rest) =>
      let done := c :: done
      match rest with
      | [] => .command (.sequence done.reverse) []
      | .operator "\n" :: rest => .command (.sequence done.reverse) rest
      | .operator ";" :: rest | .operator "&" :: rest =>
        match rest with
        | [] | .operator "\n" :: _ => .command (.sequence done.reverse) rest
        | _ => readLine fuel done rest
      | _ => .malformed

/-- The next complete command. -/
def readNext (ts : List Token) : Next :=
  match skipLines ts with
  | [] => .done
  | ts => readLine (ts.length + 1) [] ts

end SourceAudit.Script
