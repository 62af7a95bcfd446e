import SourceAudit.Parsing.Tree

/-!
Finding the next token. What counts as a token depends on what the parser can use at that point;
if nothing it can use is there, any token is taken, and if there is none at all, characters are
skipped up to the next one and become an error.
-/

namespace SourceAudit.Parsing

open SourceAudit.Grammar SourceAudit.Language

def isSeparator (c : Char) : Bool := (CharClass.oneOf Lexical.separators).contains c

/-- A stretch of text recognised as a token. -/
structure Match where
  token : Nat
  start : Nat
  stop : Nat

def Lexeme.matchAt (input : Array Char) (i : Nat) : Lexeme → Option Nat
  | .word w => matchWord input w.toList i
  | .pattern p => p.longest input i
  | .layout => none
  | .endOfText => if i == input.size then some i else none

def Lexeme.isWord : Lexeme → Bool
  | .word _ => true
  | _ => false

/-- Of two matches at one place the better one: by priority, length, and words before patterns. -/
def betterMatch (a b : Nat × TokenSpec × Nat) : Nat × TokenSpec × Nat :=
  let (_, sa, ea) := a
  let (_, sb, eb) := b
  if sb.priority > sa.priority then b
  else if sb.priority < sa.priority then a
  else if eb > ea then b
  else if eb < ea then a
  else if Lexeme.isWord sb.lexeme && !Lexeme.isWord sa.lexeme then b
  else a

def numberedLexicon : List (TokenSpec × Nat) := lexicon.toList.zipIdx

/-- Whether a backslash at `i` ends the text and is taken for a continuation of the line, as it is
where escape sequences are looked for. -/
def continuesAtEnd (input : Array Char) (wanted : TokenSet) (afterGap : Bool) (i : Nat) : Bool :=
  wanted.contains continuationToken && wanted.contains escapeToken && !afterGap &&
    i + 1 == input.size && input[i]? == some '\\'

/-- The token of the set that stands exactly at `i`. -/
def matchHere (input : Array Char) (wanted : TokenSet) (afterGap : Bool) (i : Nat) :
    Option (Nat × Nat) :=
  if continuesAtEnd input wanted afterGap i then some (continuationToken, i + 1)
  else (numberedLexicon.foldl (fun best (spec, n) =>
    if !wanted.contains n || (spec.immediate && afterGap) then best
    else
      match Lexeme.matchAt input i spec.lexeme with
      | none => best
      | some stop =>
        match best with
        | none => some (n, spec, stop)
        | some b => some (betterMatch b (n, spec, stop))) none).map fun (n, _, stop) => (n, stop)

/-- The first match at or after `i` with only separators before it. A separator that can itself
begin a token does. -/
def firstMatch (here : Bool → Nat → Option (Nat × Nat)) (input : Array Char) (afterGap : Bool)
    (i : Nat) : Option Match :=
  match here afterGap i with
  | some (n, stop) => some ⟨n, i, stop⟩
  | none =>
    if h : i < input.size then
      if isSeparator input[i] then firstMatch here input true (i + 1) else none
    else none
termination_by input.size - i

/-- The first token of the set at or after `i`. -/
def matchFrom (input : Array Char) (wanted : TokenSet) (i : Nat) : Option Match :=
  firstMatch (matchHere input wanted) input false i

/-- The keyword with exactly the text from `start` to `stop`. -/
def keywordAt (input : Array Char) (start stop : Nat) : Option Nat :=
  (numberedLexicon.find? fun (spec, n) =>
    keywordTokens.contains n && Lexeme.matchAt input start spec.lexeme == some stop).map (·.2)

/-- Where the lexer stands and what it may use there. -/
structure LexContext where
  src : Source
  /-- The tokens for which the parser's state has an action, extras included. -/
  valid : TokenSet
  /-- The tokens to look for first. -/
  sought : TokenSet
  /-- Whether the parser is recovering from an error. -/
  recovering : Bool
  /-- Whether progress was made since the last error; before that, empty layout tokens are ignored. -/
  advanced : Bool
  /-- Memory of the layout scanner after its last token. -/
  layout : Option Layout
  position : Nat

namespace LexContext

variable (ctx : LexContext)

/-- A layout token at `i`. One without width that leaves the memory unchanged would be found again
and again, so it is only taken in ordinary parsing. -/
def layoutToken (recovering : Bool) (i : Nat) : Option LayoutToken :=
  let valid := if recovering then recoveryTokens else ctx.valid
  match Layout.scan ctx.src.chars valid (ctx.layout.getD .initial) i with
  | none => none
  | some found =>
    let changed := ctx.layout != some found.layout
    if found.stop ≤ i && !changed && (recovering || !ctx.advanced) then none else some found

def layoutLeaf (found : LayoutToken) : Tree :=
  .node { label := .token found.token, lead := ctx.position, start := found.start
          stop := found.stop, layout := some found.layout
          layoutChanged := ctx.layout != some found.layout } #[]

def matchedLeaf (m : Match) : Tree :=
  let keyword := if m.token == identifierToken then keywordAt ctx.src.chars m.start m.stop else none
  let token := match keyword with
    | some k => if ctx.valid.contains k then k else m.token
    | none => m.token
  .node { label := .token token, lead := ctx.position, start := m.start, stop := m.stop
          keyword := keyword.isSome } #[]

def textMatch (recovering : Bool) (i : Nat) : Option Match :=
  let wanted := if recovering then lexicalTokens recoveryTokens else ctx.sought
  let i := if i == 0 && Layout.look ctx.src.chars 0 == '\ufeff' then 1 else i
  matchFrom ctx.src.chars wanted i

/-- End of the characters that begin no token, from `i` on. -/
def skipTo (i : Nat) : Nat :=
  if h : i < ctx.src.chars.size then
    if (ctx.layoutToken true i).isSome || (ctx.textMatch true i).isSome then i
    else skipTo (i + 1)
  else i
termination_by ctx.src.chars.size - i

/-- Position of the first character from `i` on that is no separator. -/
def skipSeparators (i : Nat) : Nat :=
  if h : i < ctx.src.chars.size then
    if isSeparator ctx.src.chars[i] then skipSeparators (i + 1) else i
  else i
termination_by ctx.src.chars.size - i

/-- The next token. -/
def next : Tree :=
  let i := ctx.position
  let usual :=
    if ctx.recovering then none
    else
      match ctx.layoutToken false i with
      | some found => some (ctx.layoutLeaf found)
      | none => (ctx.textMatch false i).map ctx.matchedLeaf
  match usual with
  | some leaf => leaf
  | none =>
    match ctx.layoutToken true i with
    | some found => ctx.layoutLeaf found
    | none =>
      match ctx.textMatch true i with
      | some m => ctx.matchedLeaf m
      | none =>
        let start := ctx.skipSeparators i
        let stop := ctx.skipTo (start + 1)
        .node { label := .error, lead := i, start := start, stop := stop } #[]

end LexContext
end SourceAudit.Parsing
