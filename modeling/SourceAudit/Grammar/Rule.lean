/-!
The notation for grammars: rules with precedences, associativity, aliases and field names.
-/

namespace SourceAudit.Grammar

inductive Assoc where
  | left
  | right
  deriving BEq, DecidableEq, Inhabited

/-- The name under which a child appears in place of its own. -/
structure Alias where
  name : String
  named : Bool
  deriving BEq, DecidableEq, Inhabited

/-- What an annotation adds to the rule below it. -/
inductive Mark where
  | prec (level : Int)
  | assoc (side : Assoc)
  | dynamic (level : Int)
  | rename (name : Alias)
  | field (name : String)
  deriving BEq, DecidableEq, Inhabited

/-- A rule over named symbols. `token` names a terminal, `ref` a rule. -/
inductive Rule where
  | blank
  | token (name : String)
  | ref (name : String)
  | seq (members : List Rule)
  | choice (members : List Rule)
  /-- One or more times. -/
  | repeat1 (body : Rule)
  | mark (m : Mark) (body : Rule)
  deriving BEq, Inhabited

namespace Rule

def optional (r : Rule) : Rule := .choice [r, .blank]

/-- Zero or more times. -/
def many (r : Rule) : Rule := .choice [.repeat1 r, .blank]

/-- One or more times with `separator` between. -/
def sepBy1 (r separator : Rule) : Rule := .seq [r, many (.seq [separator, r])]

def commaSep1 (r : Rule) : Rule := sepBy1 r (.token ",")

def field (name : String) (r : Rule) : Rule := .mark (.field name) r

def withAlias (name : String) (r : Rule) : Rule := .mark (.rename ⟨name, true⟩) r

def prec (level : Int) (r : Rule) : Rule := .mark (.prec level) r

def precLeft (level : Int) (r : Rule) : Rule := .mark (.prec level) (.mark (.assoc .left) r)

def precRight (level : Int) (r : Rule) : Rule := .mark (.prec level) (.mark (.assoc .right) r)

def dynamic (level : Int) (r : Rule) : Rule := .mark (.dynamic level) r

/-- Distinct members of nested choices, in order. -/
def flattenChoice : List Rule → List Rule
  | [] => []
  | .choice ms :: rest => ms ++ flattenChoice rest
  | r :: rest => r :: flattenChoice rest

end Rule

/-- A rule with its name. -/
structure Definition where
  name : String
  body : Rule
  deriving Inhabited

end SourceAudit.Grammar
