import SourceAudit.Language.Symbols

/-!
The layout scanner: line ends, indentation and string literals, which need memory beyond the
grammar. It is asked first at every token and answers with at most one token; tokens for line ends
and indentation have no width and stand where the previous token ended.
-/

namespace SourceAudit.Language

open SourceAudit.Grammar

/-- How an open string literal was introduced. -/
structure Delimiter where
  quote : Char
  raw : Bool := false
  format : Bool := false
  triple : Bool := false
  bytes : Bool := false
  deriving BEq, Inhabited

/-- What the scanner remembers, innermost first. -/
structure Layout where
  indents : List Nat
  delimiters : List Delimiter
  insideFormat : Bool
  deriving BEq, Inhabited

def Layout.initial : Layout := ⟨[0], [], false⟩

/-- What is kept of a memory after a token: it is written down in bytes, one for each delimiter and
each indentation, in a page of 1024 of which two are taken, and with no more than 255 delimiters.
The outermost are written first, so the innermost are the ones that are lost. -/
def Layout.remembered (st : Layout) : Layout :=
  let delimiters := st.delimiters.drop (st.delimiters.length - 255)
  let room := 1024 - (2 + delimiters.length)
  let nested := st.indents.dropLast
  let indents := (nested.drop (nested.length - room)).map (· % 256) ++ [0]
  { st with indents, delimiters }

/-- A token found in the text, with the memory after it. -/
structure LayoutToken where
  token : Nat
  start : Nat
  stop : Nat
  layout : Layout

namespace Layout

/-- What the scan of a string's content ends with. -/
inductive Content where
  | token (token stop : Nat) (closes : Bool)
  | nothing
  /-- The text, or the part before a null character, ended at the given place. -/
  | unfinished (at_ : Nat)

/-- The character at `i`; a null character also where the text has ended. -/
def look (input : Array Char) (i : Nat) : Char := input.getD i '\x00'

/-- Steps over a backslash in a raw literal with an escaped quote, backslash or line end. -/
def skipRawEscape (input : Array Char) (d : Delimiter) (i : Nat) : Nat :=
  let i := i + 1
  let i := if look input i == d.quote || look input i == '\\' then i + 1 else i
  if look input i == '\r' then
    if look input (i + 1) == '\n' then i + 2 else i + 1
  else if look input i == '\n' then i + 1
  else i

/-- Content of a string literal from `i` on; `some_` tells whether there was any before. -/
def content (input : Array Char) (d : Delimiter) (i : Nat) (some_ : Bool) : Content :=
  if h : i < input.size then
    let c := input[i]
    if c == '\x00' then .unfinished i
    else if (c == '\x7b' || c == '\x7d') && d.format then
      if some_ then .token stringContentToken i false else .nothing
    else if c == '\\' then
      if d.raw then
        let j := skipRawEscape input d i
        if _hj : i < j then content input d j some_ else .nothing
      else if d.bytes then
        let e := look input (i + 1)
        if e == 'N' || e == 'u' || e == 'U' then content input d (i + 3) true
        else if some_ then .token stringContentToken i false else .nothing
      else if some_ then .token stringContentToken i false else .nothing
    else if c == d.quote then
      if d.triple then
        if look input (i + 1) == d.quote then
          if look input (i + 2) == d.quote then
            if some_ then .token stringContentToken i false
            else .token stringEndToken (i + 3) true
          else .token stringContentToken (i + 2) false
        else .token stringContentToken (i + 1) false
      else if some_ then .token stringContentToken i false
      else .token stringEndToken (i + 1) true
    else if c == '\n' && some_ && !d.triple then .nothing
    else content input d (i + 1) true
  else .unfinished input.size
termination_by input.size - i

/-- What stands between two tokens: blanks, line ends, comment lines and continuations. -/
structure Gap where
  stop : Nat
  endOfLine : Bool := false
  indent : Nat := 0
  commentIndent : Option Nat := none

/-- Position after the rest of a comment line. -/
def skipLine (input : Array Char) (i : Nat) : Nat :=
  if h : i < input.size then
    if input[i] == '\n' || input[i] == '\x00' then i + 1 else skipLine input (i + 1)
  else input.size
termination_by input.size - i

theorem skipLine_gt (input : Array Char) (i : Nat) (h : i < input.size) :
    i < skipLine input i := by
  fun_induction skipLine input i with
  | case1 i hi heq => omega
  | case2 i hi hne ih =>
    by_cases h2 : i + 1 < input.size
    · have := ih h2; omega
    · unfold skipLine; simp [h2]; omega
  | case3 i hi => omega

/-- Reads the gap at `g.stop`. With `watchComments` a comment before the first line end stops the
scan altogether, and comments after it are skipped; otherwise a comment ends the gap. -/
def readGap (input : Array Char) (watchComments : Bool) (g : Gap) : Option Gap :=
  if h : g.stop < input.size then
    let c := input[g.stop]
    if c == '\n' then
      readGap input watchComments { g with stop := g.stop + 1, endOfLine := true, indent := 0 }
    else if c == ' ' then
      readGap input watchComments { g with stop := g.stop + 1, indent := g.indent + 1 }
    else if c == '\r' || c == '\x0c' then
      readGap input watchComments { g with stop := g.stop + 1, indent := 0 }
    else if c == '\t' then
      readGap input watchComments { g with stop := g.stop + 1, indent := g.indent + 8 }
    else if c == '#' && watchComments then
      if !g.endOfLine then none
      else
        have := skipLine_gt input g.stop h
        readGap input watchComments
          { g with stop := skipLine input g.stop, indent := 0
                   commentIndent := g.commentIndent <|> some g.indent }
    else if c == '\\' then
      let width := if look input (g.stop + 1) == '\r' then 2 else 1
      if g.stop + width ≥ input.size then readGap input watchComments { g with stop := input.size }
      else if look input (g.stop + width) == '\n' then
        readGap input watchComments { g with stop := g.stop + (width + 1) }
      else none
    else some g
  else some { g with endOfLine := true, indent := 0 }
termination_by input.size - g.stop

/-- Letters before the opening quote. -/
def readFlags (input : Array Char) (d : Delimiter) (i : Nat) : Delimiter × Nat :=
  if h : i < input.size then
    let c := input[i]
    if c == 'f' || c == 'F' then readFlags input { d with format := true } (i + 1)
    else if c == 'r' || c == 'R' then readFlags input { d with raw := true } (i + 1)
    else if c == 'b' || c == 'B' then readFlags input { d with bytes := true } (i + 1)
    else if c == 'u' || c == 'U' then readFlags input d (i + 1)
    else (d, i)
  else (d, i)
termination_by input.size - i

/-- The opening of a string literal at `start`, with the place where it ends. -/
def opening (input : Array Char) (start : Nat) : Option (Delimiter × Nat) :=
  let (d, i) := readFlags input { quote := '\x00' } start
  let c := look input i
  if c == '`' then some ({ d with quote := c }, i + 1)
  else if c == '\'' || c == '"' then
    if look input (i + 1) == c && look input (i + 2) == c then
      some ({ d with quote := c, triple := true }, i + 3)
    else some ({ d with quote := c }, i + 1)
  else none

/-- Layout tokens after a gap that was entered at `from_`, where zero-width tokens stand. -/
def afterGap (input : Array Char) (valid : TokenSet) (recovering : Bool) (st : Layout)
    (from_ : Nat) (g : Gap) : Option LayoutToken :=
  let closerExpected := valid.contains closeBraceToken || valid.contains closeParenToken ||
    valid.contains closeBracketToken
  let current := st.indents.headD 0
  let c := look input g.stop
  let quoteNext := c == '"' || c == '\'' || c == '`'
  if g.endOfLine && valid.contains indentToken && g.indent > current then
    some ⟨indentToken, from_, from_, { st with indents := g.indent :: st.indents }⟩
  else if g.endOfLine &&
      (valid.contains dedentToken ||
        (!valid.contains newlineToken && !(valid.contains stringStartToken && quoteNext) &&
          !closerExpected)) &&
      g.indent < current && !st.insideFormat &&
      (match g.commentIndent with | none => true | some k => k < current) then
    some ⟨dedentToken, from_, from_, { st with indents := st.indents.tail }⟩
  else if g.endOfLine && valid.contains newlineToken && !recovering then
    some ⟨newlineToken, from_, from_, st⟩
  else if g.commentIndent.isNone && valid.contains stringStartToken then
    match opening input g.stop with
    | some (d, stop) =>
      some ⟨stringStartToken, g.stop, stop,
        { st with delimiters := d :: st.delimiters, insideFormat := d.format }⟩
    | none => none
  else none

/-- The gap and what follows it. `start` is where the token begins if the gap was entered in the
middle of one. -/
def betweenTokens (input : Array Char) (valid : TokenSet) (recovering : Bool) (st : Layout)
    (start from_ : Nat) : Option LayoutToken :=
  let watchComments := valid.contains indentToken || valid.contains dedentToken ||
    valid.contains newlineToken || valid.contains exceptToken
  match readGap input watchComments { stop := from_ } with
  | none => none
  | some g =>
    (afterGap input valid recovering st from_ g).map fun found =>
      if found.start == from_ && g.stop == from_ then { found with start := start } else found

/-- The token at `from_`, among the `valid` ones, with the memory as the scanner would have it. -/
def tokenFrom (input : Array Char) (valid : TokenSet) (st : Layout) (from_ : Nat) :
    Option LayoutToken :=
  let recovering := valid.contains stringContentToken && valid.contains indentToken
  let start := if from_ == 0 && look input 0 == '\ufeff' then 1 else from_
  let c := look input start
  match st.delimiters with
  | d :: outer =>
    if valid.contains escapeInterpolationToken && (c == '\x7b' || c == '\x7d') && !recovering &&
        d.format then
      if look input (start + 1) == c then
        some ⟨escapeInterpolationToken, start, start + 2, st⟩
      else none
    else if valid.contains stringContentToken && !recovering then
      match content input d start false with
      | .token tok stop closes =>
        let st' := if closes then { st with delimiters := outer, insideFormat := false } else st
        some ⟨tok, start, stop, st'⟩
      | .nothing => none
      | .unfinished at_ => betweenTokens input valid recovering st start at_
    else betweenTokens input valid recovering st start start
  | [] => betweenTokens input valid recovering st start start

/-- The token at `from_`, among the `valid` ones, with what is remembered after it. -/
def scan (input : Array Char) (valid : TokenSet) (st : Layout) (from_ : Nat) :
    Option LayoutToken :=
  (tokenFrom input valid st from_).map fun found =>
    { found with layout := found.layout.remembered }

end Layout
end SourceAudit.Language
