import SourceAudit.Json.Reader
import SourceAudit.Json.Record

/-!
Messages of the external linter.
-/

namespace SourceAudit.Linter

/-- A message. Texts that are not given are empty. -/
structure Message where
  category : String := ""
  symbol : String := ""
  message : String := ""
  messageId : String := ""
  path : String := ""
  obj : String := ""
  line : Option Nat := none
  column : Option Nat := none
  deriving BEq, DecidableEq, Inhabited

namespace Message

/-- The field names of a message, in order. -/
def fieldNames : List String :=
  ["type", "symbol", "message", "message-id", "path", "obj", "line", "column"]

def toJson (m : Message) : Json :=
  .obj [("type", .str m.category), ("symbol", .str m.symbol), ("message", .str m.message),
    ("message-id", .str m.messageId), ("path", .str m.path), ("obj", .str m.obj),
    ("line", Json.ofOption .nat m.line), ("column", Json.ofOption .nat m.column)]

def ofJson? (j : Json) : Option Message := do
  let m ← j.members? fieldNames.length
  let category ← m.withDefault 0 "type" "" Json.string?
  let symbol ← m.withDefault 1 "symbol" "" Json.string?
  let message ← m.withDefault 2 "message" "" Json.string?
  let messageId ← m.withDefault 3 "message-id" "" Json.string?
  let path ← m.withDefault 4 "path" "" Json.string?
  let obj ← m.withDefault 5 "obj" "" Json.string?
  let line ← m.optional 6 "line" Json.nat?
  let column ← m.optional 7 "column" Json.nat?
  return { category, symbol, message, messageId, path, obj, line, column }

/-- The fields of a message in a written object: each at most once, with a value. All other fields
are passed over without a look at their values. -/
def knownFields? (seen : List String) :
    List (Option String × Json.Document) → Option (List (String × Json))
  | [] => some []
  | (none, _) :: _ => none
  | (some n, d) :: fs =>
    if n ∉ fieldNames then knownFields? seen fs
    else if n ∈ seen then none
    else
      match d.value? Json.maxDepth with
      | none => none
      | some v => (knownFields? (n :: seen) fs).map ((n, v) :: ·)

/-- The message that a document spells. -/
def ofDocument? : Json.Document → Option Message
  | .obj fields => (knownFields? [] fields).bind fun fs => ofJson? (.obj fs)
  | .arr elements => (Json.Document.values? Json.maxDepth elements).bind fun vs => ofJson? (.arr vs)
  | .scalar _ => none

end Message

/-- The messages that a text spells: a JSON array of them. -/
def messages? (text : List Char) : Option (List Message) :=
  match Json.Document.parse? text with
  | some (.arr elements) => elements.mapM Message.ofDocument?
  | _ => none

end SourceAudit.Linter
