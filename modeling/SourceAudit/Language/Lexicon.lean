import SourceAudit.Grammar.Pattern
import SourceAudit.Grammar.TokenSet

/-!
The tokens of the source language. A token's number is its place in `lexicon`;
number 0 is the end of the text and number 1 the identifier.
-/

namespace SourceAudit.Language

open SourceAudit.Grammar

/-- How a token is recognised. -/
inductive Lexeme where
  | word (text : String)
  | pattern (p : Pattern)
  /-- Only the layout scanner produces it. -/
  | layout
  | endOfText

structure TokenSpec where
  name : String
  lexeme : Lexeme
  named : Bool := false
  visible : Bool := true
  /-- Whether nothing, not even blanks, may stand before it. -/
  immediate : Bool := false
  /-- A match of higher priority beats a longer one. -/
  priority : Nat := 0

namespace Lexical

def chars (s : String) : Pattern := Pattern.oneOf (s.toList.map fun c => (c, c))

def digit : Pattern := Pattern.oneOf [('0', '9')]

def hexDigit : Pattern := Pattern.oneOf [('a', 'f'), ('A', 'F'), ('0', '9')]

/-- Runs of digits, each with at most one underscore behind it. -/
def digitGroups : Pattern := (Pattern.seq digit.plus (chars "_").optional).plus

/-- Runs of the given digits, each with at most one underscore before it. -/
def prefixedGroups (d : Pattern) : Pattern := (Pattern.seq (chars "_").optional d.plus).plus

def radixInteger (mark : String) (d : Pattern) : Pattern :=
  .concat [Pattern.literal "0", chars mark, prefixedGroups d, (chars "Ll").optional]

def integer : Pattern :=
  .anyOf [
    radixInteger "xX" hexDigit,
    radixInteger "oO" (.oneOf [('0', '7')]),
    radixInteger "bB" (.oneOf [('0', '1')]),
    .seq digitGroups (.anyOf [(chars "Ll").optional, (chars "jJ").optional])]

def exponent : Pattern := .concat [chars "eE", (chars "+-").optional, digitGroups]

def float : Pattern :=
  .seq
    (.anyOf [
      .concat [digitGroups, chars ".", digitGroups.optional, exponent.optional],
      .concat [digitGroups.optional, chars ".", digitGroups, exponent.optional],
      .seq digitGroups exponent])
    (chars "jJ").optional

def lineBreak : Pattern := .seq (chars "\r").optional (chars "\n")

def escape : Pattern :=
  .seq (chars "\\") (.anyOf [
    .seq (chars "u") (hexDigit.times 4),
    .seq (chars "U") (hexDigit.times 8),
    .seq (chars "x") (hexDigit.times 2),
    .concat [digit, digit.optional, digit.optional],
    lineBreak,
    chars "'\"abfrntv\\",
    .concat [Pattern.literal "N\x7b", (Pattern.char (.noneOf [('\x7d', '\x7d')])).plus, chars "\x7d"]])

def identifier : Pattern := .seq (.char .identifierStart) (.star (.char .identifierPart))

def comment : Pattern := .seq (chars "#") (.star (.char (.noneOf [('\n', '\n')])))

def continuation : Pattern :=
  .seq (chars "\\") (.alt lineBreak (Pattern.oneOf [('\x00', '\x00')]))

/-- Characters that may stand before any token that is not immediate. -/
def separators : List (Char × Char) :=
  [('\t', '\r'), (' ', ' '), ('\ufeff', '\ufeff'), ('\u2060', '\u2060'), ('\u200b', '\u200b')]

/-- Blanks within a line, which are text where text of a format specifier is looked for. -/
def lineBlank : Pattern := .oneOf (separators.tail ++ [('\t', '\t'), ('\x0b', '\r')])

/-- Text of a format specifier: everything up to a brace or the end of the line. It may begin with a
continuation before a null character, which is no text anywhere else. -/
def specifierText : Pattern :=
  let text := Pattern.char (.noneOf [('\x7b', '\x7b'), ('\x7d', '\x7d'), ('\n', '\n')])
  .alt text.plus (.concat [.star lineBlank, Pattern.literal "\\\x00", .star text])

end Lexical

def plainToken (text : String) : TokenSpec := { name := text, lexeme := .word text }

def namedWord (name text : String) : TokenSpec := { name := name, lexeme := .word text, named := true }

def namedPattern (name : String) (p : Pattern) : TokenSpec :=
  { name := name, lexeme := .pattern p, named := true }

def layoutToken (name : String) (visible : Bool) : TokenSpec :=
  { name := name, lexeme := .layout, named := true, visible := visible }

/-- All tokens, in the order of their numbers. -/
def lexicon : Array TokenSpec :=
  #[{ name := "end", lexeme := .endOfText, visible := false },
    namedPattern "identifier" Lexical.identifier] ++
  (#[";", "import", ".", "from", "__future__", "(", ")", ",", "as", "*", "print", ">>", "assert",
    ":=", "return", "del", "raise", "pass", "break", "continue", "if", ":", "elif", "else", "match",
    "case", "async", "for", "in", "while", "try", "except", "except*", "finally", "with", "def",
    "->", "**", "global", "nonlocal", "exec", "type", "=", "class", "[", "]", "@", "-", "_", "|",
    "\x7b", "\x7d", "+", "not", "and", "or", "/", "%", "//", "&", "^", "<<", "~", "<", "<=", "==", "!=",
    ">=", ">", "<>", "is", "lambda", "+=", "-=", "*=", "/=", "@=", "//=", "%=", "**=", ">>=", "<<=",
    "&=", "^=", "|=", "yield"].map plainToken) ++
  #[namedWord "ellipsis" "...",
    { name := "escape_sequence", lexeme := .pattern Lexical.escape, named := true,
      immediate := true, priority := 1 },
    { name := "_not_escape_sequence", lexeme := .word "\\", named := true, visible := false,
      immediate := true },
    { name := "specifier_text", lexeme := .pattern Lexical.specifierText, visible := false,
      priority := 1 },
    namedPattern "type_conversion" (.seq (Lexical.chars "!") (.oneOf [('a', 'z')])),
    namedPattern "integer" Lexical.integer,
    namedPattern "float" Lexical.float,
    plainToken "await",
    namedWord "true" "True",
    namedWord "false" "False",
    namedWord "none" "None",
    namedPattern "comment" Lexical.comment,
    namedPattern "line_continuation" Lexical.continuation,
    layoutToken "_newline" false,
    layoutToken "_indent" false,
    layoutToken "_dedent" false,
    layoutToken "string_start" true,
    layoutToken "_string_content" false,
    layoutToken "escape_interpolation" true,
    layoutToken "string_end" true]

/-- Number of the token with the given name; the size of the lexicon if there is none. -/
def tokenNumber (name : String) : Nat := (lexicon.findIdx? (·.name == name)).getD lexicon.size

end SourceAudit.Language
