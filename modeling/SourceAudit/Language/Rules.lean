import SourceAudit.Grammar.Rule

/-!
The grammar of the source language, both its second and third edition: the statements that only the
older edition has are recognised so that they can be reported.
-/

namespace SourceAudit.Language

open SourceAudit.Grammar SourceAudit.Grammar.Rule

namespace Level

def lambda : Int := -2
def typedParameter : Int := -1
def conditional : Int := -1
def parenthesized : Int := 1
def or : Int := 10
def and : Int := 11
def not : Int := 12
def compare : Int := 13
def bitwiseOr : Int := 14
def bitwiseAnd : Int := 15
def xor : Int := 16
def shift : Int := 17
def plus : Int := 18
def times : Int := 19
def unary : Int := 20
def power : Int := 21
def call : Int := 22

end Level

/-- A terminal. -/
def t (name : String) : Rule := .token name

/-- Another rule. -/
def r (name : String) : Rule := .ref name

def identifier : Rule := t "identifier"

def expression : Rule := r "expression"

def primary : Rule := r "primary_expression"

/-- Words that are keywords in some places and identifiers in all others. -/
def keywordIdentifier : Rule := r "keyword_identifier"

def trailingComma : Rule := optional (t ",")

def commaList (item : Rule) : Rule := .seq [commaSep1 item, trailingComma]

def moduleRules : List Definition := [
  ⟨"module", many (r "_statement")⟩,
  ⟨"_statement", .choice [r "_simple_statements", r "_compound_statement"]⟩,
  ⟨"_simple_statements",
    .seq [sepBy1 (r "_simple_statement") (t ";"), optional (t ";"), t "_newline"]⟩,
  ⟨"_simple_statement", .choice [
    r "future_import_statement", r "import_statement", r "import_from_statement",
    r "print_statement", r "assert_statement", r "expression_statement", r "return_statement",
    r "delete_statement", r "raise_statement", r "pass_statement", r "break_statement",
    r "continue_statement", r "global_statement", r "nonlocal_statement", r "exec_statement",
    r "type_alias_statement"]⟩]

def simpleStatementRules : List Definition := [
  ⟨"import_statement", .seq [t "import", r "_import_list"]⟩,
  ⟨"import_prefix", .repeat1 (t ".")⟩,
  ⟨"relative_import", .seq [r "import_prefix", optional (r "dotted_name")]⟩,
  ⟨"future_import_statement", .seq [
    t "from", t "__future__", t "import",
    .choice [r "_import_list", .seq [t "(", r "_import_list", t ")"]]]⟩,
  ⟨"import_from_statement", .seq [
    t "from", field "module_name" (.choice [r "relative_import", r "dotted_name"]), t "import",
    .choice [r "wildcard_import", r "_import_list", .seq [t "(", r "_import_list", t ")"]]]⟩,
  ⟨"_import_list", commaList (field "name" (.choice [r "dotted_name", r "aliased_import"]))⟩,
  ⟨"aliased_import", .seq [
    field "name" (r "dotted_name"), t "as", field "alias" identifier]⟩,
  ⟨"wildcard_import", t "*"⟩,
  ⟨"print_statement", .choice [
    prec 1 (.seq [t "print", r "chevron", many (.seq [t ",", field "argument" expression]),
      trailingComma]),
    prec (-3) (dynamic (-1) (.seq [t "print", commaSep1 (field "argument" expression),
      trailingComma]))]⟩,
  ⟨"chevron", .seq [t ">>", expression]⟩,
  ⟨"assert_statement", .seq [t "assert", commaSep1 expression]⟩,
  ⟨"expression_statement", .choice [
    expression, commaList expression, r "assignment", r "augmented_assignment", r "yield"]⟩,
  ⟨"named_expression", .seq [
    field "name" (r "_named_expression_lhs"), t ":=", field "value" expression]⟩,
  ⟨"_named_expression_lhs", .choice [identifier, keywordIdentifier]⟩,
  ⟨"return_statement", .seq [t "return", optional (r "_expressions")]⟩,
  ⟨"delete_statement", .seq [t "del", r "_expressions"]⟩,
  ⟨"_expressions", .choice [expression, r "expression_list"]⟩,
  ⟨"raise_statement", .seq [
    t "raise", optional (r "_expressions"), optional (.seq [t "from", field "cause" expression])]⟩,
  ⟨"pass_statement", precLeft 0 (t "pass")⟩,
  ⟨"break_statement", precLeft 0 (t "break")⟩,
  ⟨"continue_statement", precLeft 0 (t "continue")⟩]

def compoundStatementRules : List Definition := [
  ⟨"_compound_statement", .choice [
    r "if_statement", r "for_statement", r "while_statement", r "try_statement",
    r "with_statement", r "function_definition", r "class_definition", r "decorated_definition",
    r "match_statement"]⟩,
  ⟨"if_statement", .seq [
    t "if", field "condition" expression, t ":", field "consequence" (r "_suite"),
    many (field "alternative" (r "elif_clause")),
    optional (field "alternative" (r "else_clause"))]⟩,
  ⟨"elif_clause", .seq [
    t "elif", field "condition" expression, t ":", field "consequence" (r "_suite")]⟩,
  ⟨"else_clause", .seq [t "else", t ":", field "body" (r "_suite")]⟩,
  ⟨"match_statement", .seq [
    t "match", commaSep1 (field "subject" expression), trailingComma, t ":",
    field "body" (withAlias "block" (r "_match_block"))]⟩,
  ⟨"_match_block", .choice [
    .seq [t "_indent", many (field "alternative" (r "case_clause")), t "_dedent"],
    t "_newline"]⟩,
  ⟨"case_clause", .seq [
    t "case", commaSep1 (r "case_pattern"), trailingComma,
    optional (field "guard" (r "if_clause")), t ":", field "consequence" (r "_suite")]⟩,
  ⟨"for_statement", .seq [
    optional (t "async"), t "for", field "left" (r "_left_hand_side"), t "in",
    field "right" (r "_expressions"), t ":", field "body" (r "_suite"),
    field "alternative" (optional (r "else_clause"))]⟩,
  ⟨"while_statement", .seq [
    t "while", field "condition" expression, t ":", field "body" (r "_suite"),
    optional (field "alternative" (r "else_clause"))]⟩,
  ⟨"try_statement", .seq [
    t "try", t ":", field "body" (r "_suite"),
    .choice [
      .seq [.repeat1 (r "except_clause"), optional (r "else_clause"),
        optional (r "finally_clause")],
      .seq [.repeat1 (r "except_group_clause"), optional (r "else_clause"),
        optional (r "finally_clause")],
      r "finally_clause"]]⟩,
  ⟨"except_clause", .seq [
    t "except",
    optional (.seq [field "value" expression,
      optional (.seq [.choice [t "as", t ","], field "alias" expression])]),
    t ":", r "_suite"]⟩,
  ⟨"except_group_clause", .seq [
    t "except*", .seq [expression, optional (.seq [t "as", expression])], t ":", r "_suite"]⟩,
  ⟨"finally_clause", .seq [t "finally", t ":", r "_suite"]⟩,
  ⟨"with_statement", .seq [
    optional (t "async"), t "with", r "with_clause", t ":", field "body" (r "_suite")]⟩,
  ⟨"with_clause", .choice [
    commaList (r "with_item"),
    .seq [t "(", commaSep1 (r "with_item"), trailingComma, t ")"]]⟩,
  ⟨"with_item", dynamic 1 (.seq [field "value" expression])⟩]

def definitionRules : List Definition := [
  ⟨"function_definition", .seq [
    optional (t "async"), t "def", field "name" identifier,
    field "type_parameters" (optional (r "type_parameter")), field "parameters" (r "parameters"),
    optional (.seq [t "->", field "return_type" (r "type")]), t ":", field "body" (r "_suite")]⟩,
  ⟨"parameters", .seq [t "(", optional (r "_parameters"), t ")"]⟩,
  ⟨"lambda_parameters", r "_parameters"⟩,
  ⟨"list_splat", .seq [t "*", expression]⟩,
  ⟨"dictionary_splat", .seq [t "**", expression]⟩,
  ⟨"global_statement", .seq [t "global", commaSep1 identifier]⟩,
  ⟨"nonlocal_statement", .seq [t "nonlocal", commaSep1 identifier]⟩,
  ⟨"exec_statement", .seq [
    t "exec", field "code" (.choice [r "string", identifier]),
    optional (.seq [t "in", commaSep1 expression])]⟩,
  ⟨"type_alias_statement", dynamic 1 (.seq [
    t "type", field "left" (r "type"), t "=", field "right" (r "type")])⟩,
  ⟨"class_definition", .seq [
    t "class", field "name" identifier, field "type_parameters" (optional (r "type_parameter")),
    field "superclasses" (optional (r "argument_list")), t ":", field "body" (r "_suite")]⟩,
  ⟨"type_parameter", .seq [t "[", commaSep1 (r "type"), trailingComma, t "]"]⟩,
  ⟨"parenthesized_list_splat", prec Level.parenthesized (.seq [
    t "(",
    .choice [withAlias "parenthesized_expression" (r "parenthesized_list_splat"), r "list_splat"],
    t ")"])⟩,
  ⟨"argument_list", .seq [
    t "(",
    optional (commaSep1 (.choice [
      expression, r "list_splat", r "dictionary_splat",
      withAlias "parenthesized_expression" (r "parenthesized_list_splat"),
      r "keyword_argument"])),
    trailingComma, t ")"]⟩,
  ⟨"decorated_definition", .seq [
    .repeat1 (r "decorator"),
    field "definition" (.choice [r "class_definition", r "function_definition"])]⟩,
  ⟨"decorator", .seq [t "@", expression, t "_newline"]⟩,
  ⟨"_suite", .choice [
    withAlias "block" (r "_simple_statements"),
    .seq [t "_indent", r "block"],
    withAlias "block" (t "_newline")]⟩,
  ⟨"block", .seq [many (r "_statement"), t "_dedent"]⟩,
  ⟨"expression_list", precRight 0 (.seq [
    expression,
    .choice [t ",", .seq [.repeat1 (.seq [t ",", expression]), trailingComma]]])⟩,
  ⟨"dotted_name", prec 1 (sepBy1 identifier (t "."))⟩]

def casePatternRules : List Definition := [
  ⟨"case_pattern", prec 1 (.choice [
    withAlias "as_pattern" (r "_as_pattern"), r "keyword_pattern", r "_simple_pattern"])⟩,
  ⟨"_simple_pattern", prec 1 (.choice [
    r "class_pattern", r "splat_pattern", r "union_pattern",
    withAlias "list_pattern" (r "_list_pattern"), withAlias "tuple_pattern" (r "_tuple_pattern"),
    r "dict_pattern", r "string", r "concatenated_string", t "true", t "false", t "none",
    .seq [optional (t "-"), .choice [t "integer", t "float"]],
    r "complex_pattern", r "dotted_name", t "_"])⟩,
  ⟨"_as_pattern", .seq [r "case_pattern", t "as", identifier]⟩,
  ⟨"union_pattern", precRight 0 (.seq [
    r "_simple_pattern", .repeat1 (precLeft 0 (.seq [t "|", r "_simple_pattern"]))])⟩,
  ⟨"_list_pattern", .seq [t "[", optional (commaList (r "case_pattern")), t "]"]⟩,
  ⟨"_tuple_pattern", .seq [t "(", optional (commaList (r "case_pattern")), t ")"]⟩,
  ⟨"dict_pattern", .seq [
    t "\x7b", optional (commaList (.choice [r "_key_value_pattern", r "splat_pattern"])), t "\x7d"]⟩,
  ⟨"_key_value_pattern", .seq [
    field "key" (r "_simple_pattern"), t ":", field "value" (r "case_pattern")]⟩,
  ⟨"keyword_pattern", .seq [identifier, t "=", r "_simple_pattern"]⟩,
  ⟨"splat_pattern", prec 1 (.seq [.choice [t "*", t "**"], .choice [identifier, t "_"]])⟩,
  ⟨"class_pattern", .seq [
    r "dotted_name", t "(", optional (commaList (r "case_pattern")), t ")"]⟩,
  ⟨"complex_pattern", prec 1 (.seq [
    optional (t "-"), .choice [t "integer", t "float"], .choice [t "+", t "-"],
    .choice [t "integer", t "float"]])⟩]

def splatTarget : Rule :=
  .choice [identifier, keywordIdentifier, r "subscript", r "attribute"]

def patternRules : List Definition := [
  ⟨"_parameters", commaList (r "parameter")⟩,
  ⟨"_patterns", commaList (r "pattern")⟩,
  ⟨"parameter", .choice [
    identifier, r "typed_parameter", r "default_parameter", r "typed_default_parameter",
    r "list_splat_pattern", r "tuple_pattern", r "keyword_separator", r "positional_separator",
    r "dictionary_splat_pattern"]⟩,
  ⟨"pattern", .choice [
    identifier, keywordIdentifier, r "subscript", r "attribute", r "list_splat_pattern",
    r "tuple_pattern", r "list_pattern"]⟩,
  ⟨"tuple_pattern", .seq [t "(", optional (r "_patterns"), t ")"]⟩,
  ⟨"list_pattern", .seq [t "[", optional (r "_patterns"), t "]"]⟩,
  ⟨"default_parameter", .seq [
    field "name" (.choice [identifier, r "tuple_pattern"]), t "=", field "value" expression]⟩,
  ⟨"typed_default_parameter", prec Level.typedParameter (.seq [
    field "name" identifier, t ":", field "type" (r "type"), t "=", field "value" expression])⟩,
  ⟨"list_splat_pattern", .seq [t "*", splatTarget]⟩,
  ⟨"dictionary_splat_pattern", .seq [t "**", splatTarget]⟩,
  ⟨"as_pattern", precLeft 0 (.seq [
    expression, t "as", field "alias" (withAlias "as_pattern_target" expression)])⟩]

def binaryOperator (mark : Int → Rule → Rule) (operator : String) (level : Int) : Rule :=
  mark level (.seq [
    field "left" primary, field "operator" (t operator), field "right" primary])

def expressionRules : List Definition := [
  ⟨"_expression_within_for_in_clause", .choice [
    expression, withAlias "lambda" (r "lambda_within_for_in_clause")]⟩,
  ⟨"expression", .choice [
    r "comparison_operator", r "not_operator", r "boolean_operator", r "lambda", primary,
    r "conditional_expression", r "named_expression", r "as_pattern"]⟩,
  ⟨"primary_expression", .choice [
    r "await", r "binary_operator", identifier, keywordIdentifier, r "string",
    r "concatenated_string", t "integer", t "float", t "true", t "false", t "none",
    r "unary_operator", r "attribute", r "subscript", r "call", r "list", r "list_comprehension",
    r "dictionary", r "dictionary_comprehension", r "set", r "set_comprehension", r "tuple",
    r "parenthesized_expression", r "generator_expression", t "ellipsis",
    withAlias "list_splat" (r "list_splat_pattern")]⟩,
  ⟨"not_operator", prec Level.not (.seq [t "not", field "argument" expression])⟩,
  ⟨"boolean_operator", .choice [
    precLeft Level.and (.seq [
      field "left" expression, field "operator" (t "and"), field "right" expression]),
    precLeft Level.or (.seq [
      field "left" expression, field "operator" (t "or"), field "right" expression])]⟩,
  ⟨"binary_operator", .choice [
    binaryOperator precLeft "+" Level.plus,
    binaryOperator precLeft "-" Level.plus,
    binaryOperator precLeft "*" Level.times,
    binaryOperator precLeft "@" Level.times,
    binaryOperator precLeft "/" Level.times,
    binaryOperator precLeft "%" Level.times,
    binaryOperator precLeft "//" Level.times,
    binaryOperator precRight "**" Level.power,
    binaryOperator precLeft "|" Level.bitwiseOr,
    binaryOperator precLeft "&" Level.bitwiseAnd,
    binaryOperator precLeft "^" Level.xor,
    binaryOperator precLeft "<<" Level.shift,
    binaryOperator precLeft ">>" Level.shift]⟩,
  ⟨"unary_operator", prec Level.unary (.seq [
    field "operator" (.choice [t "+", t "-", t "~"]), field "argument" primary])⟩,
  ⟨"_not_in", .seq [t "not", t "in"]⟩,
  ⟨"_is_not", .seq [t "is", t "not"]⟩,
  ⟨"comparison_operator", precLeft Level.compare (.seq [
    primary,
    .repeat1 (.seq [
      field "operators" (.choice [
        t "<", t "<=", t "==", t "!=", t ">=", t ">", t "<>", t "in",
        .mark (.rename ⟨"not in", false⟩) (r "_not_in"), t "is",
        .mark (.rename ⟨"is not", false⟩) (r "_is_not")]),
      primary])])⟩,
  ⟨"lambda", prec Level.lambda (.seq [
    t "lambda", field "parameters" (optional (r "lambda_parameters")), t ":",
    field "body" expression])⟩,
  ⟨"lambda_within_for_in_clause", .seq [
    t "lambda", field "parameters" (optional (r "lambda_parameters")), t ":",
    field "body" (r "_expression_within_for_in_clause")]⟩]

def assignmentRules : List Definition := [
  ⟨"assignment", .seq [
    field "left" (r "_left_hand_side"),
    .choice [
      .seq [t "=", field "right" (r "_right_hand_side")],
      .seq [t ":", field "type" (r "type")],
      .seq [t ":", field "type" (r "type"), t "=", field "right" (r "_right_hand_side")]]]⟩,
  ⟨"augmented_assignment", .seq [
    field "left" (r "_left_hand_side"),
    field "operator" (.choice (["+=", "-=", "*=", "/=", "@=", "//=", "%=", "**=", ">>=", "<<=", "&=",
      "^=", "|="].map t)),
    field "right" (r "_right_hand_side")]⟩,
  ⟨"_left_hand_side", .choice [r "pattern", r "pattern_list"]⟩,
  ⟨"pattern_list", .seq [
    r "pattern",
    .choice [t ",", .seq [.repeat1 (.seq [t ",", r "pattern"]), trailingComma]]]⟩,
  ⟨"_right_hand_side", .choice [
    expression, r "expression_list", r "assignment", r "augmented_assignment", r "pattern_list",
    r "yield"]⟩,
  ⟨"yield", precRight 0 (.seq [
    t "yield", .choice [.seq [t "from", expression], optional (r "_expressions")]])⟩]

def trailerRules : List Definition := [
  ⟨"attribute", prec Level.call (.seq [
    field "object" primary, t ".", field "attribute" identifier])⟩,
  ⟨"subscript", prec Level.call (.seq [
    field "value" primary, t "[",
    commaSep1 (field "subscript" (.choice [expression, r "slice"])), trailingComma, t "]"])⟩,
  ⟨"slice", .seq [
    optional expression, t ":", optional expression,
    optional (.seq [t ":", optional expression])]⟩,
  ⟨"call", prec Level.call (.seq [
    field "function" primary,
    field "arguments" (.choice [r "generator_expression", r "argument_list"])])⟩,
  ⟨"typed_parameter", prec Level.typedParameter (.seq [
    .choice [identifier, r "list_splat_pattern", r "dictionary_splat_pattern"], t ":",
    field "type" (r "type")])⟩,
  ⟨"type", .choice [
    prec 1 expression, r "splat_type", r "generic_type", r "union_type", r "constrained_type",
    r "member_type"]⟩,
  ⟨"splat_type", prec 1 (.seq [.choice [t "*", t "**"], identifier])⟩,
  ⟨"generic_type", prec 1 (.seq [
    .choice [identifier, withAlias "identifier" (t "type")], r "type_parameter"])⟩,
  ⟨"union_type", precLeft 0 (.seq [r "type", t "|", r "type"])⟩,
  ⟨"constrained_type", precRight 0 (.seq [r "type", t ":", r "type"])⟩,
  ⟨"member_type", .seq [r "type", t ".", identifier]⟩,
  ⟨"keyword_argument", .seq [
    field "name" (.choice [identifier, keywordIdentifier]), t "=", field "value" expression]⟩]

def comprehension (opener closer : String) (body : Rule) : Rule :=
  .seq [t opener, field "body" body, r "_comprehension_clauses", t closer]

def literalRules : List Definition := [
  ⟨"list", .seq [t "[", optional (r "_collection_elements"), t "]"]⟩,
  ⟨"set", .seq [t "\x7b", r "_collection_elements", t "\x7d"]⟩,
  ⟨"tuple", .seq [t "(", optional (r "_collection_elements"), t ")"]⟩,
  ⟨"dictionary", .seq [
    t "\x7b", optional (commaSep1 (.choice [r "pair", r "dictionary_splat"])), trailingComma, t "\x7d"]⟩,
  ⟨"pair", .seq [field "key" expression, t ":", field "value" expression]⟩,
  ⟨"list_comprehension", comprehension "[" "]" expression⟩,
  ⟨"dictionary_comprehension", comprehension "\x7b" "\x7d" (r "pair")⟩,
  ⟨"set_comprehension", comprehension "\x7b" "\x7d" expression⟩,
  ⟨"generator_expression", comprehension "(" ")" expression⟩,
  ⟨"_comprehension_clauses", .seq [
    r "for_in_clause", many (.choice [r "for_in_clause", r "if_clause"])]⟩,
  ⟨"parenthesized_expression", prec Level.parenthesized (.seq [
    t "(", .choice [expression, r "yield"], t ")"])⟩,
  ⟨"_collection_elements", commaList (.choice [
    expression, r "yield", r "list_splat", r "parenthesized_list_splat"])⟩,
  ⟨"for_in_clause", precLeft 0 (.seq [
    optional (t "async"), t "for", field "left" (r "_left_hand_side"), t "in",
    field "right" (commaSep1 (r "_expression_within_for_in_clause")), trailingComma])⟩,
  ⟨"if_clause", .seq [t "if", expression]⟩,
  ⟨"conditional_expression", precRight Level.conditional (.seq [
    expression, t "if", expression, t "else", expression])⟩]

def stringRules : List Definition := [
  ⟨"concatenated_string", .seq [r "string", .repeat1 (r "string")]⟩,
  ⟨"string", .seq [
    t "string_start", many (.choice [r "interpolation", r "string_content"]), t "string_end"]⟩,
  ⟨"string_content", precRight 0 (.repeat1 (.choice [
    t "escape_interpolation", t "escape_sequence", t "_not_escape_sequence",
    t "_string_content"]))⟩,
  ⟨"interpolation", .seq [
    t "\x7b", field "expression" (r "_f_expression"), optional (t "="),
    optional (field "type_conversion" (t "type_conversion")),
    optional (field "format_specifier" (r "format_specifier")), t "\x7d"]⟩,
  ⟨"_f_expression", .choice [expression, r "expression_list", r "pattern_list", r "yield"]⟩,
  ⟨"format_specifier", .seq [
    t ":",
    many (.choice [t "specifier_text", withAlias "format_expression" (r "interpolation")])]⟩,
  ⟨"keyword_identifier", .choice [
    prec (-3) (withAlias "identifier" (.choice [t "print", t "exec", t "async", t "await"])),
    withAlias "identifier" (.choice [t "type", t "match"])]⟩,
  ⟨"await", prec Level.unary (.seq [t "await", primary])⟩,
  ⟨"positional_separator", t "/"⟩,
  ⟨"keyword_separator", t "*"⟩]

/-- All rules; the first one is the start rule. -/
def rules : List Definition :=
  moduleRules ++ simpleStatementRules ++ compoundStatementRules ++ definitionRules ++
  casePatternRules ++ patternRules ++ expressionRules ++ assignmentRules ++ trailerRules ++
  literalRules ++ stringRules

/-- Variables replaced by their alternatives wherever they occur. -/
def inlinedVariables : List String :=
  ["_simple_statement", "_compound_statement", "_suite", "_expressions", "_left_hand_side",
   "keyword_identifier"]

/-- Variables that stand for a class of nodes and form no node of their own. -/
def classVariables : List String :=
  ["_simple_statement", "_compound_statement", "expression", "primary_expression", "pattern",
   "parameter"]

end SourceAudit.Language
