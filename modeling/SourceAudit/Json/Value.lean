import SourceAudit.Number.Decimal

/-!
JSON values. A number is an integer if it is written as one and fits into 64 bits, else a double.
-/

namespace SourceAudit

open SourceAudit.Number (Binary64)

/-- A JSON value. The fields of an object stand in the order in which they are written. -/
inductive Json where
  | null
  | bool (b : Bool)
  | int (n : Int)
  | double (x : Binary64)
  | str (s : String)
  | arr (elements : List Json)
  | obj (fields : List (String × Json))
  deriving Inhabited

namespace Json

def nat (n : Nat) : Json := .int n

/-- A double; one that is not finite has no number in JSON. -/
def ofDouble (x : Binary64) : Json := if x.isFinite then .double x else .null

def ofOption {α : Type} (f : α → Json) : Option α → Json
  | none => .null
  | some a => f a

/-- The value of a field. -/
def field? (fields : List (String × Json)) (name : String) : Option Json :=
  (fields.find? fun f => f.1 = name).map (·.2)

/-- Sets a field of an object whose fields are in increasing order of their names. -/
def insertField (name : String) (v : Json) : List (String × Json) → List (String × Json)
  | [] => [(name, v)]
  | (n, w) :: rest =>
    if name < n then (name, v) :: (n, w) :: rest
    else if name = n then (name, v) :: rest
    else (n, w) :: insertField name v rest

mutual

/-- The value with the fields of all objects in increasing order; of equal names the last counts. -/
def sorted : Json → Json
  | .arr xs => .arr (sortedList xs)
  | .obj fs => .obj (sortedFields fs [])
  | .null => .null
  | .bool b => .bool b
  | .int n => .int n
  | .double x => .double x
  | .str s => .str s

def sortedList : List Json → List Json
  | [] => []
  | x :: xs => x.sorted :: sortedList xs

def sortedFields : List (String × Json) → List (String × Json) → List (String × Json)
  | [], done => done
  | (n, v) :: rest, done => sortedFields rest (insertField n v.sorted done)

end

mutual

/-- Levels of nesting of arrays and objects. -/
def depth : Json → Nat
  | .arr xs => 1 + depthList xs
  | .obj fs => 1 + depthFields fs
  | _ => 0

def depthList : List Json → Nat
  | [] => 0
  | x :: xs => max x.depth (depthList xs)

def depthFields : List (String × Json) → Nat
  | [] => 0
  | (_, v) :: rest => max v.depth (depthFields rest)

end

end Json
end SourceAudit
