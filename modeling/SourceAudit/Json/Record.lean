import SourceAudit.Json.Value

/-!
Records in JSON: an object with the record's field names, or an array with the fields in order.
Fields that the record does not have are passed over in an object and refused in an array.
-/

namespace SourceAudit.Json

/-- The fields of a record as they are given. -/
inductive Members where
  | named (fields : List (String × Json))
  | listed (elements : List Json)

/-- The members of a record with `arity` fields. -/
def members? (arity : Nat) : Json → Option Members
  | .obj fields => some (.named fields)
  | .arr elements => if elements.length ≤ arity then some (.listed elements) else none
  | _ => none

/-- The member of a field by its name and its place. -/
def Members.get? (m : Members) (place : Nat) (name : String) : Option Json :=
  match m with
  | .named fields => field? fields name
  | .listed elements => elements[place]?

/-- A field that must be present. -/
def Members.required {α : Type} (m : Members) (place : Nat) (name : String)
    (read : Json → Option α) : Option α :=
  (m.get? place name).bind read

/-- A field that may be absent. -/
def Members.withDefault {α : Type} (m : Members) (place : Nat) (name : String) (default : α)
    (read : Json → Option α) : Option α :=
  match m.get? place name with
  | none => some default
  | some j => read j

/-- A field that may be absent or null. -/
def Members.optional {α : Type} (m : Members) (place : Nat) (name : String)
    (read : Json → Option α) : Option (Option α) :=
  match m.get? place name with
  | none => some none
  | some .null => some none
  | some j => (read j).map some

/-! ### Field values -/

def string? : Json → Option String
  | .str s => some s
  | _ => none

/-- A natural number, written as an integer. -/
def nat? : Json → Option Nat
  | .int n => if 0 ≤ n then some n.toNat else none
  | _ => none

/-- Any number, as a double. -/
def double? : Json → Option Number.Binary64
  | .int n => some (.ofInt n)
  | .double x => some x
  | _ => none

/-- A list whose elements can all be read. -/
def list? {α : Type} (read : Json → Option α) : Json → Option (List α)
  | .arr elements => elements.mapM read
  | _ => none

/-- One of several labels: a string, or an object with the label as its only field and null as its
value. -/
def label? {α : Type} (ofLabel? : String → Option α) : Json → Option α
  | .str s => ofLabel? s
  | .obj [(s, .null)] => ofLabel? s
  | _ => none

/-- The field of an optional value, which is left out if there is none. -/
def optionalField {α : Type} (name : String) (write : α → Json) : Option α → List (String × Json)
  | none => []
  | some a => [(name, write a)]

end SourceAudit.Json
