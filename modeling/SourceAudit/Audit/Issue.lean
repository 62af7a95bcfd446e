/-!
Findings of the detectors.
-/

namespace SourceAudit.Audit

/-- What a finding is about. -/
inductive IssueKind where
  | missingModuleDoc
  | missingFunctionDoc
  | missingClassDoc
  | longFunction
  | workMarker
  | duplicateImport
  | emptyExceptHandler
  deriving BEq, DecidableEq, Inhabited

def IssueKind.label : IssueKind → String
  | .missingModuleDoc => "missing_module_docstring"
  | .missingFunctionDoc => "missing_function_docstring"
  | .missingClassDoc => "missing_class_docstring"
  | .longFunction => "long_function"
  | .workMarker => "todos_found"
  | .duplicateImport => "duplicate_import"
  | .emptyExceptHandler => "empty_except_handler"

/-- The kind with a label. -/
def IssueKind.ofLabel? : String → Option IssueKind
  | "missing_module_docstring" => some .missingModuleDoc
  | "missing_function_docstring" => some .missingFunctionDoc
  | "missing_class_docstring" => some .missingClassDoc
  | "long_function" => some .longFunction
  | "todos_found" => some .workMarker
  | "duplicate_import" => some .duplicateImport
  | "empty_except_handler" => some .emptyExceptHandler
  | _ => none

/-- Place of a finding, counted from one. -/
structure Location where
  line : Nat
  column : Nat
  deriving BEq, DecidableEq, Inhabited

/-- Lines of a function, as the length rule measures them. -/
structure LineSpan where
  startLine : Nat
  endLine : Nat
  length : Nat
  deriving BEq, DecidableEq, Inhabited

/-- A finding. -/
structure Issue where
  kind : IssueKind
  message : String
  location : Option Location := none
  /-- Name of the construct. -/
  name : Option String := none
  span : Option LineSpan := none
  /-- Number of occurrences. -/
  count : Option Nat := none
  deriving BEq, DecidableEq, Inhabited

/-- Line of a finding that has a place. -/
def Issue.line? (i : Issue) : Option Nat := i.location.map (·.line)

end SourceAudit.Audit
