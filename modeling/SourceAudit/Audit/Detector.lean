import SourceAudit.Audit.Issue
import SourceAudit.Audit.Marker
import SourceAudit.Syntax.Tree

/-!
The detectors. Each looks at the same tree and text and at nothing that another one found, and
reports in the order of the source.
-/

namespace SourceAudit.Audit

open SourceAudit.Syntax (Node)

/-- A detector with its name. -/
structure Detector where
  name : String
  detect : Node → List Char → List Issue

/-- Place of a node. -/
def locationOf (n : Node) : Location := ⟨n.line, n.column⟩

/-! ### Docstrings -/

/-- A module without a docstring. -/
def moduleDocIssues (tree : Node) : List Issue :=
  if tree.docstring?.isSome then []
  else [{ kind := .missingModuleDoc, message := "Module is missing a top-level docstring" }]

/-- A function or class without a docstring. -/
def definitionDocIssue? (n : Node) : Option Issue :=
  match n.kind with
  | .function name _ none =>
    some { kind := .missingFunctionDoc
           message := "Missing docstring in function '" ++ name ++ "'"
           location := some (locationOf n), name := some name }
  | .class name none =>
    some { kind := .missingClassDoc
           message := "Missing docstring in class '" ++ name ++ "'"
           location := some (locationOf n), name := some name }
  | _ => none

def definitionDocIssues (tree : Node) : List Issue := tree.walk.filterMap definitionDocIssue?

/-! ### Long functions -/

/-- Lines of a function: from its own to the last one on which a node of it starts. -/
def spanOf (f : Node) : LineSpan := ⟨f.line, f.maxLine, f.maxLine - f.line⟩

/-- A function of more lines than the threshold. -/
def longFunctionIssue? (threshold : Nat) (f : Node) : Option Issue :=
  let span := spanOf f
  if span.length ≤ threshold then none
  else
    let name := f.name?.getD "<anonymous>"
    some { kind := .longFunction
           message := "Function '" ++ name ++ "' is too long (" ++ toString span.length ++ " lines)"
           location := some (locationOf f), name := some name, span := some span }

def longFunctionIssues (threshold : Nat) (tree : Node) : List Issue :=
  tree.functions.filterMap (longFunctionIssue? threshold)

/-! ### Work markers -/

/-- One finding for all work markers of the text. -/
def markerIssues (text : List Char) : List Issue :=
  match countMarkers text with
  | 0 => []
  | n =>
    [{ kind := .workMarker
       message := "Found " ++ toString n ++ " TODO marker" ++ (if n = 1 then "" else "s")
       count := some n }]

/-! ### Imports -/

/-- The first module that an import statement names. -/
def firstImport? (n : Node) : Option String :=
  match n.kind with
  | .imports names => names.head?
  | _ => none

/-- The first node that imports a module seen before, with the name of the module. -/
def firstRepeat? (seen : List String) : List Node → Option (String × Node)
  | [] => none
  | n :: ns =>
    match firstImport? n with
    | none => firstRepeat? seen ns
    | some name =>
      if seen.contains name then some (name, n) else firstRepeat? (name :: seen) ns

/-- One finding for the first module that is imported twice. -/
def duplicateImportIssues (tree : Node) : List Issue :=
  match firstRepeat? [] tree.walk with
  | none => []
  | some (name, n) =>
    [{ kind := .duplicateImport, message := "Possible unused or duplicate imports"
       location := some (locationOf n), name := some name }]

/-! ### Exception handlers -/

/-- A `try` statement without any handler. -/
def emptyHandlerIssue? (n : Node) : Option Issue :=
  match n.kind with
  | .try 0 =>
    some { kind := .emptyExceptHandler, message := "Try block without any except handler"
           location := some (locationOf n) }
  | _ => none

def emptyHandlerIssues (tree : Node) : List Issue := tree.walk.filterMap emptyHandlerIssue?

/-! ### All together -/

/-- Greatest number of lines of a function that is not reported, if nothing else is said. -/
def defaultThreshold : Nat := 50

/-- All detectors in the order in which they run. -/
def detectors (threshold : Nat) : List Detector :=
  [⟨"module_docstring", fun tree _ => moduleDocIssues tree⟩,
   ⟨"definition_docstring", fun tree _ => definitionDocIssues tree⟩,
   ⟨"long_function", fun tree _ => longFunctionIssues threshold tree⟩,
   ⟨"todo_marker", fun _ text => markerIssues text⟩,
   ⟨"duplicate_import", fun tree _ => duplicateImportIssues tree⟩,
   ⟨"empty_except_handler", fun tree _ => emptyHandlerIssues tree⟩]

/-- The findings of all detectors, one detector after the other. -/
def detectAll (threshold : Nat) (tree : Node) (text : List Char) : List Issue :=
  (detectors threshold).flatMap fun d => d.detect tree text

end SourceAudit.Audit
