/-!
What can be wrong with a source, and how it is worded.
-/

namespace SourceAudit.Syntax

/-- Why a source is not valid. -/
inductive Problem where
  /-- A token is missing; whether the grammar has a name for it decides the quotes. -/
  | missing (kind : String) (named : Bool)
  | invalid
  | printStatement
  | execStatement
  | unexpectedIndent
  | unindentMismatch
  /-- A header of the given kind on the given line has no block of its own. -/
  | expectedBlock (header : String) (line : Nat)
  | parameterWithoutDefault
  | bareGenerator
  | deletesCall
  | deletesExpression
  deriving BEq, DecidableEq, Inhabited

/-- How a statement with a block is called. -/
def headerName : String → String
  | "function_definition" => "function definition"
  | "class_definition" => "class definition"
  | "if_statement" => "'if' statement"
  | "elif_clause" => "'elif' statement"
  | "else_clause" => "'else' statement"
  | "for_statement" => "'for' statement"
  | "while_statement" => "'while' statement"
  | "with_statement" => "'with' statement"
  | "try_statement" => "'try' statement"
  | "except_clause" => "'except' statement"
  | "except_group_clause" => "'except' statement"
  | "finally_clause" => "'finally' statement"
  | "match_statement" => "'match' statement"
  | "case_clause" => "'case' statement"
  | _ => "statement"

def Problem.message : Problem → String
  | .missing kind true => "expected " ++ kind
  | .missing kind false => "expected '" ++ kind ++ "'"
  | .invalid => "invalid syntax"
  | .printStatement => "Missing parentheses in call to 'print'. Did you mean print(...)?"
  | .execStatement => "Missing parentheses in call to 'exec'"
  | .unexpectedIndent => "unexpected indent"
  | .unindentMismatch => "unindent does not match any outer indentation level"
  | .expectedBlock header line =>
    "expected an indented block after " ++ headerName header ++ " on line " ++ toString line
  | .parameterWithoutDefault => "parameter without a default follows parameter with a default"
  | .bareGenerator => "Generator expression must be parenthesized"
  | .deletesCall => "cannot delete function call"
  | .deletesExpression => "cannot delete expression"

/-- A syntax error as it is reported: place counted from one, wording, and the line it is on. -/
structure SyntaxError where
  line : Nat
  column : Nat
  message : String
  offendingText : String
  deriving BEq, DecidableEq, Inhabited

/-- `line:column: message`. -/
def SyntaxError.display (e : SyntaxError) : String :=
  toString e.line ++ ":" ++ toString e.column ++ ": " ++ e.message

end SourceAudit.Syntax
