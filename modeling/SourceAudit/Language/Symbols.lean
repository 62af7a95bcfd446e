import SourceAudit.Grammar.Table
import SourceAudit.Language.Lexicon
import SourceAudit.Language.Rules

/-!
The grammar in the form the parser works with: numbered variables, productions, the automaton, and
the token classes that matter for lexing.
-/

namespace SourceAudit.Language

open SourceAudit.Grammar

/-- The name under which a symbol's nodes appear, if they appear at all. -/
structure Appearance where
  name : String
  visible : Bool
  named : Bool
  deriving Inhabited

/-- All rules without repetitions. -/
def flatRules : List Definition := withoutRepeats rules

def variableNames : Array String := (flatRules.map (·.name)).toArray

def variableNumber (name : String) : Nat :=
  (variableNames.findIdx? (· == name)).getD variableNames.size

/-- The symbol that a leaf of a rule names. -/
def resolve : Rule → Symbol
  | .token n => .terminal (tokenNumber n)
  | .ref n => .variable (variableNumber n)
  | _ => .terminal 0

def isAuxiliaryName (name : String) : Bool := name.contains '#'

def isHiddenName (name : String) : Bool :=
  name.startsWith "_" || isAuxiliaryName name || classVariables.contains name

def hiddenVariables : Array Bool := variableNames.map isHiddenName

/-- The productions before inlining, with all aliases. -/
def aliasedProductions : Array Production :=
  (flatRules.zipIdx.flatMap fun (d, i) => productionsOf resolve i d.body).toArray

/-- The default alias of each variable. -/
def defaultAliases : Array (Option Alias) :=
  variableNames.mapIdx fun i name =>
    if inlinedVariables.contains name then none
    else defaultAlias? aliasedProductions (.variable i)

/-- The productions in which a default alias is left to the symbol. -/
def plainProductions : Array Production :=
  aliasedProductions.map fun p => { p with
    steps := p.steps.map fun st =>
      match st.symbol, st.rename with
      | .variable v, some a =>
        if defaultAliases.getD v none == some a then { st with rename := none } else st
      | _, _ => st }

def inlineAlternatives (s : Symbol) : Option (List Production) :=
  match s with
  | .terminal _ => none
  | .variable v =>
    if inlinedVariables.contains (variableNames.getD v "") then
      some (plainProductions.toList.filter (·.lhs == v))
    else none

/-- The productions after inlining. -/
def productions : Array Production :=
  let table := (Array.range variableNames.size).map fun v => inlineAlternatives (.variable v)
  let alternativesOf : Symbol → Option (List Production)
    | .terminal _ => none
    | .variable v => table.getD v none
  ((plainProductions.toList.filter fun p => (table.getD p.lhs none).isNone).flatMap
    (·.inlined alternativesOf 8)).toArray

def automaton : Automaton :=
  .build lexicon.size hiddenVariables (variableNames.map isAuxiliaryName) productions 0

def tokenAppearances : Array Appearance :=
  lexicon.map fun spec => ⟨spec.name, spec.visible, spec.named⟩

def variableAppearances : Array Appearance :=
  variableNames.mapIdx fun i name =>
    match defaultAliases.getD i none with
    | some a => ⟨a.name, true, a.named⟩
    | none => ⟨name, !isHiddenName name, true⟩

def endToken : Nat := 0
def identifierToken : Nat := 1
def commentToken : Nat := tokenNumber "comment"
def continuationToken : Nat := tokenNumber "line_continuation"
def newlineToken : Nat := tokenNumber "_newline"
def indentToken : Nat := tokenNumber "_indent"
def dedentToken : Nat := tokenNumber "_dedent"
def stringStartToken : Nat := tokenNumber "string_start"
def stringContentToken : Nat := tokenNumber "_string_content"
def escapeInterpolationToken : Nat := tokenNumber "escape_interpolation"
def stringEndToken : Nat := tokenNumber "string_end"
def escapeToken : Nat := tokenNumber "escape_sequence"
def closeParenToken : Nat := tokenNumber ")"
def closeBracketToken : Nat := tokenNumber "]"
def closeBraceToken : Nat := tokenNumber "\x7d"
def exceptToken : Nat := tokenNumber "except"

/-- Tokens that may stand anywhere and belong to no production. -/
def extraTokens : TokenSet := .ofList [commentToken, continuationToken]

/-- A text that is an identifier, keywords included. -/
def isNameText (w : String) : Bool := w.toList.all Text.isIdentifierPart

/-- Whether some token that is no name begins with the given text. -/
def beginsOther (w : String) : Bool :=
  lexicon.any fun spec =>
    match spec.lexeme with
    | .word v => !isNameText v && w.toList.isPrefixOf v.toList
    | _ => false

/-- Words that are identifiers wherever they are not expected. A word that begins a token which is
no name is not among them: it is looked for on its own, so that the longer one is found. -/
def keywordTokens : TokenSet :=
  .ofList (lexicon.toList.zipIdx.filterMap fun (spec, i) =>
    match spec.lexeme with
    | .word w => if isNameText w && !beginsOther w then some i else none
    | _ => none)

/-- Tokens recognised while recovering from an error: all but the text of format specifiers, which
would swallow the rest of every line. -/
def recoveryTokens : TokenSet :=
  .ofList ((List.range lexicon.size).filter (· != tokenNumber "specifier_text"))

/-! ### States -/

/-- Tokens that only the scanner of the layout finds. -/
def layoutTokens : List Nat :=
  [newlineToken, indentToken, dedentToken, stringStartToken, stringContentToken,
    escapeInterpolationToken, stringEndToken]

/-- Tokens whose presence in a state changes what the scanner of the layout finds. -/
def layoutSensitive : TokenSet :=
  .ofList (layoutTokens ++
    [commentToken, closeParenToken, closeBracketToken, closeBraceToken, exceptToken])

/-- Pairs of tokens of which the first may be read on from where the second ends, with a character
that may follow the second, or which have a text in common. Keywords and identifiers are told apart
by the lexer and do not count. -/
def rivalTokens : List (String × String) := [
  ("ellipsis", "."), ("float", "integer"), ("**", "*"), ("**=", "*"), (":=", ":"),
  ("except*", "except"), ("except*", "identifier"), ("identifier", "except"), ("except", "identifier"),
  ("async", "as"), ("assert", "as"), ("escape_sequence", "_not_escape_sequence"),
  ("escape_sequence", "line_continuation"), ("line_continuation", "escape_sequence")]

def specifierToken : Nat := tokenNumber "specifier_text"

/-- For each token, those with which it must not be put together. The text of a format specifier
rivals every token. -/
def rivals : Array TokenSet :=
  (Array.range lexicon.size).map fun t =>
    if t == specifierToken then .ofList (List.range lexicon.size)
    else .ofList (specifierToken :: rivalTokens.filterMap fun (a, b) =>
      if tokenNumber a == t then some (tokenNumber b) else none)

/-- The order in which the states after the symbols are numbered: layout tokens, all other tokens
with the identifier behind the numbers, and the variables. -/
def symbolOrder : Array Nat :=
  let others := (List.range lexicon.size).filter fun t =>
    !layoutTokens.contains t && t != identifierToken
  let tokens := others.flatMap fun t =>
    if t == tokenNumber "float" then [t, identifierToken] else [t]
  (layoutTokens ++ tokens ++ (List.range variableNames.size).map (· + lexicon.size)).toArray

/-- Pairs of tokens of which the second can be the beginning of the first, words apart. -/
def partTokens : List (String × String) :=
  [("float", "."), ("line_continuation", "_not_escape_sequence")]

/-- The text of a token that has only one. -/
def wordOf? (t : Nat) : Option String :=
  lexicon[t]?.bind fun (spec : TokenSpec) =>
    match spec.lexeme with
    | .word w => some w
    | _ => none

/-- Whether the second token can be the beginning of the first. -/
def isPart (a b : Nat) : Bool :=
  match wordOf? a, wordOf? b with
  | some v, some w => v != w && w.toList.isPrefixOf v.toList
  | _, _ => partTokens.any fun (c, d) => tokenNumber c == a && tokenNumber d == b

/-- For each token, those that it overlaps with. -/
def overlaps : Array TokenSet :=
  (Array.range lexicon.size).map fun a =>
    .ofList ((List.range lexicon.size).filter fun b =>
      isPart a b || isPart b a || (rivals.getD a .empty).contains b || (rivals.getD b .empty).contains a)

/-- The tokens to look for to find a set of valid tokens: keywords are found as identifiers, and the
scanner of the layout finds its own. -/
def lexicalTokens (valid : TokenSet) : TokenSet :=
  let valid := (valid.union extraTokens).diff (.ofList layoutTokens)
  let plain := valid.diff keywordTokens
  if plain == valid then valid else plain.insert identifierToken

/-- Variables that are given another name somewhere. -/
def renamedVariables : Array Bool :=
  aliasedProductions.foldl (fun acc p => p.steps.foldl (fun acc st =>
    match st.symbol with
    | .variable v => if st.rename.isSome then acc.set! v true else acc
    | .terminal _ => acc) acc) (Array.replicate variableNames.size false)

def fieldVariables : Array Bool := fieldCarriers hiddenVariables productions

/-- Whether a reduction of one symbol leaves no trace: the variable is hidden, no class, and never
renamed, and the symbol brings no field. -/
def isPlainUnit (it : Item) : Bool :=
  let v := it.production.lhs
  hiddenVariables.getD v false && !classVariables.contains (variableNames.getD v "") &&
    !renamedVariables.getD v false &&
    it.production.steps.all fun st =>
      st.rename.isNone && st.field.isNone &&
        match st.symbol with
        | .terminal _ => true
        | .variable w => !(hiddenVariables.getD w false && fieldVariables.getD w false)

def table : Table :=
  .build automaton
    { order := symbolOrder
      mergeability := ⟨layoutSensitive, rivals⟩
      plain := isPlainUnit
      extras := extraTokens
      rivals := rivals
      overlaps := overlaps
      lexical := lexicalTokens
      recovery := recoveryTokens.diff (.ofList layoutTokens) }

end SourceAudit.Language
