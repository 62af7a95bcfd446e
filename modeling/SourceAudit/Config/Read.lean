import SourceAudit.Config.Basic
import SourceAudit.Yaml.Node

/-!
Configurations in YAML. Settings that are not known are passed over; one that is known may be given
only once.
-/

namespace SourceAudit.Config

open SourceAudit.Yaml (Document Node Scalar)

/-! ### Scalars -/

def nullTag : List Char := "tag:yaml.org,2002:null".toList

def boolTag : List Char := "tag:yaml.org,2002:bool".toList

def intTag : List Char := "tag:yaml.org,2002:int".toList

def isNullText (text : List Char) : Bool :=
  [['~'], "null".toList, "Null".toList, "NULL".toList].contains text

/-- Whether a scalar stands for no value; none if its tag says so and its text does not. -/
def isNull? (s : Scalar) : Option Bool :=
  if s.style ≠ .plain then some false
  else
    match s.tag with
    | some t => if t = nullTag then (if isNullText s.text then some true else none) else some false
    | none => some (s.text.isEmpty || isNullText s.text)

/-- Whether the text of a scalar may be read as a value of the kind with the given tag. -/
def isTyped (tag : List Char) (s : Scalar) : Bool :=
  s.style = .plain || (s.style = .literal && s.tag = some tag)

def readBool? (s : Scalar) : Option Bool :=
  if !isTyped boolTag s then none
  else if ["true".toList, "True".toList, "TRUE".toList].contains s.text then some true
  else if ["false".toList, "False".toList, "FALSE".toList].contains s.text then some false
  else none

/-- The number that digits of a base spell; none if there are none or it needs over 64 bits. -/
def digits? (base : Nat) (cs : List Char) : Option Nat :=
  if cs.isEmpty then none
  else
    let values := cs.filterMap fun c => (Yaml.hexValue? c).filter (· < base)
    let n := values.foldl (fun n d => n * base + d) 0
    if values.length = cs.length && n < 1 <<< 64 then some n else none

/-- Zero and more digits are no number. -/
def isPaddedNumber (cs : List Char) : Bool :=
  cs.length > 1 && cs.head? = some '0' && cs.all Yaml.isDigit

/-- A natural number: decimal, or in another base with a mark of it in front. -/
def natText? (text : List Char) : Option Nat :=
  let cs := match text with
    | '+' :: cs => cs
    | cs => cs
  match cs with
  | '0' :: 'x' :: rest => digits? 16 rest
  | '0' :: 'o' :: rest => digits? 8 rest
  | '0' :: 'b' :: rest => digits? 2 rest
  | _ => if isPaddedNumber cs then none else digits? 10 cs

def readNat? (s : Scalar) : Option Nat := if isTyped intTag s then natText? s.text else none

/-! ### Nodes -/

/-- A scalar, possibly through an alias. -/
def scalar? (d : Document) (n : Node) : Option Scalar :=
  match d.resolve n with
  | some (.scalar s) => some s
  | _ => none

def string? (d : Document) (n : Node) : Option String :=
  (scalar? d n).map fun s => String.ofList s.text

/-- A value that may be null. -/
def optional? {α : Type} (d : Document) (read : Node → Option α) (n : Node) : Option (Option α) :=
  match d.resolve n with
  | some (.scalar s) =>
    match isNull? s with
    | none => none
    | some true => some none
    | some false => (read (.scalar s)).map some
  | some n => (read n).map some
  | none => none

/-- The settings of a section by name. A plain scalar without text is a section without any. -/
def settings? (d : Document) (n : Node) : Option (List (String × Node)) :=
  match d.resolve n with
  | some (.mapping entries) =>
    entries.mapM fun (k, v) => (string? d k).map fun name => (name, v)
  | some (.scalar s) => if s.text.isEmpty && s.style = .plain then some [] else none
  | _ => none

/-- A setting that may be absent but not given twice. -/
def setting? {α : Type} (settings : List (String × Node)) (name : String) (default : α)
    (read : Node → Option α) : Option α :=
  match settings.filter fun s => s.1 = name with
  | [] => some default
  | [(_, n)] => read n
  | _ => none

def linter? (d : Document) (n : Node) : Option LinterConfig := do
  let settings ← settings? d n
  let enabled ← setting? settings "enabled" false fun n => (scalar? d n).bind readBool?
  let command ← setting? settings "command" none (optional? d (string? d))
  return { enabled, command }

def ofDocument? (d : Document) : Option Config := do
  let settings ← match d.root with
    | none => some []
    | some n => settings? d n
  let storePath ← setting? settings "store_path" none (optional? d (string? d))
  let longFunctionThreshold ← setting? settings "long_function_threshold" none
    (optional? d fun n => (scalar? d n).bind readNat?)
  let linter ← setting? settings "linter" none (optional? d (linter? d))
  return { storePath, longFunctionThreshold, linter }

/-- The configuration that a text spells; a blank text is the one without any settings. -/
def parse? (text : List Char) : Option Config :=
  if (Text.trimChars text).isEmpty then some {}
  else (Yaml.parse? text).bind ofDocument?

end SourceAudit.Config
