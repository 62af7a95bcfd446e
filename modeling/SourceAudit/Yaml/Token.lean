/-!
Tokens of a YAML text.
-/

namespace SourceAudit.Yaml

/-- How a scalar is written. -/
inductive ScalarStyle where
  | plain
  | singleQuoted
  | doubleQuoted
  | literal
  | folded
  deriving BEq, DecidableEq, Inhabited

inductive Token where
  | streamEnd
  | versionDirective (major minor : Nat)
  | tagDirective (handle tagStart : List Char)
  | documentStart
  | documentEnd
  | blockSequenceStart
  | blockMappingStart
  | blockEnd
  | flowSequenceStart
  | flowSequenceEnd
  | flowMappingStart
  | flowMappingEnd
  | blockEntry
  | flowEntry
  | key
  | value
  | reference (name : List Char)
  | anchor (name : List Char)
  | tag (handle suffix : List Char)
  | scalar (style : ScalarStyle) (text : List Char)
  deriving BEq, DecidableEq, Inhabited

end SourceAudit.Yaml
