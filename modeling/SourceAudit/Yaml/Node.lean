import SourceAudit.Yaml.Event
import SourceAudit.Yaml.Scanner

/-!
YAML documents as trees.
-/

namespace SourceAudit.Yaml

/-- A node of a document. An alias points to the slot of an anchor. -/
inductive Node where
  | scalar (s : Scalar)
  | sequence (items : List Node)
  | mapping (entries : List (Node × Node))
  | reference (slot : Nat)
  deriving Inhabited

/-- A document: its root, if it has one, the anchored nodes by their numbers, and for every slot the
numbers of the nodes that were put there, the latest first. -/
structure Document where
  root : Option Node := none
  anchored : List (Nat × Node) := []
  slots : List (Nat × Nat) := []
  deriving Inhabited

/-- A collection that is being read, with its number if it has an anchor. -/
inductive OpenNode where
  | sequence (anchor : Option Nat) (items : List Node)
  | mapping (anchor : Option Nat) (entries : List (Node × Node)) (key : Option Node)

structure Composer where
  stack : List OpenNode := []
  /-- The names of anchors, each once, with their slots. -/
  names : List (List Char × Nat) := []
  document : Document := {}
  documents : Nat := 0

namespace Composer

/-- Gives a node with an anchor its number and a slot: the one behind as many slots as there are
names. A name that is used again therefore gets a slot that the next new name takes over. -/
def register (c : Composer) : Option (List Char) → Option Nat × Composer
  | none => (none, c)
  | some name =>
    let number := c.document.slots.length
    let slot := c.names.length
    (some number,
      { c with
        names := (name, slot) :: c.names.filter (·.1 ≠ name)
        document := { c.document with slots := (slot, number) :: c.document.slots } })

/-- Puts a complete node where it belongs. -/
def place (c : Composer) (anchor : Option Nat) (n : Node) : Composer :=
  let c := match anchor with
    | none => c
    | some a =>
      { c with document := { c.document with anchored := (a, n) :: c.document.anchored } }
  match c.stack with
  | [] => { c with document := { c.document with root := some n } }
  | .sequence a items :: rest => { c with stack := .sequence a (n :: items) :: rest }
  | .mapping a entries none :: rest => { c with stack := .mapping a entries (some n) :: rest }
  | .mapping a entries (some k) :: rest =>
    { c with stack := .mapping a ((k, n) :: entries) none :: rest }

/-- Takes one event; none if an alias has no anchor. -/
def step (c : Composer) : Event → Option Composer
  | .documentStart => some { c with documents := c.documents + 1 }
  | .documentEnd => some c
  | .reference name =>
    match c.names.find? fun a => a.1 = name with
    | none => none
    | some (_, slot) => some (c.place none (.reference slot))
  | .scalar anchor s =>
    let (a, c) := c.register anchor
    some (c.place a (.scalar s))
  | .sequenceStart anchor =>
    let (a, c) := c.register anchor
    some { c with stack := .sequence a [] :: c.stack }
  | .mappingStart anchor =>
    let (a, c) := c.register anchor
    some { c with stack := .mapping a [] none :: c.stack }
  | .sequenceEnd =>
    match c.stack with
    | .sequence a items :: rest => some ({ c with stack := rest }.place a (.sequence items.reverse))
    | _ => none
  | .mappingEnd =>
    match c.stack with
    | .mapping a entries none :: rest =>
      some ({ c with stack := rest }.place a (.mapping entries.reverse))
    | _ => none

end Composer

/-- The document of a text; none if the text is not valid or holds several documents. -/
def parse? (text : List Char) : Option Document := do
  let ts ← tokens? text
  let es ← events? ts
  let c ← es.foldlM Composer.step {}
  if c.documents ≤ 1 then some c.document else none

/-- The node itself, or the one that an alias points to. -/
def Document.resolve (d : Document) : Node → Option Node
  | .reference slot => do
    let (_, number) ← d.slots.find? fun s => s.1 = slot
    let (_, n) ← d.anchored.find? fun a => a.1 = number
    return n
  | n => some n

end SourceAudit.Yaml
