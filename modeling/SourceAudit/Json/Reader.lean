import SourceAudit.Json.Token

/-!
Reading a JSON text. The tokens are first put together to a document, which keeps every field of an
object and has no limit of depth; a document is a value if it keeps to the limits of values.
-/

namespace SourceAudit.Json

/-- A JSON text as it is written. A field name is absent if it is not sound. -/
inductive Document where
  | scalar (t : Token)
  | arr (elements : List Document)
  | obj (fields : List (Option String × Document))
  deriving Inhabited

/-- A container part way through, nearest part first: an array, or an object with the name of the
field whose value is being read. -/
inductive Frame where
  | array (done : List Document)
  | object (done : List (Option String × Document)) (name : Option String)

/-- What may come next. -/
inductive Expect where
  | value
  /-- A value, or the end of an array that has just begun. -/
  | firstElement
  /-- A field name, or the end of an object that has just begun. -/
  | firstName
  | name (fields : List (Option String × Document))
  | colon (fields : List (Option String × Document)) (name : Option String)
  /-- A value is complete. -/
  | after (v : Document)

structure ReaderState where
  frames : List Frame
  expect : Expect

/-- Reads one token where a value may begin. -/
def readValue (frames : List Frame) : Token → Option ReaderState
  | .openArray => some ⟨.array [] :: frames, .firstElement⟩
  | .openObject => some ⟨frames, .firstName⟩
  | .closeArray | .closeObject | .comma | .colon => none
  | t => some ⟨frames, .after (.scalar t)⟩

/-- Reads one token where a field name may stand. -/
def readName (frames : List Frame) (done : List (Option String × Document)) :
    Token → Option ReaderState
  | .str n => some ⟨frames, .colon done (some n)⟩
  | .brokenStr => some ⟨frames, .colon done none⟩
  | _ => none

/-- Reads one token after a complete value. -/
def readAfter (v : Document) : List Frame → Token → Option ReaderState
  | .array done :: fs, .comma => some ⟨.array (v :: done) :: fs, .value⟩
  | .array done :: fs, .closeArray => some ⟨fs, .after (.arr (v :: done).reverse)⟩
  | .object done n :: fs, .comma => some ⟨fs, .name ((n, v) :: done)⟩
  | .object done n :: fs, .closeObject => some ⟨fs, .after (.obj ((n, v) :: done).reverse)⟩
  | _, _ => none

def readStep (s : ReaderState) (t : Token) : Option ReaderState :=
  match s.expect with
  | .value => readValue s.frames t
  | .firstElement =>
    match s.frames, t with
    | .array _ :: fs, .closeArray => some ⟨fs, .after (.arr [])⟩
    | fs, t => readValue fs t
  | .firstName =>
    match t with
    | .closeObject => some ⟨s.frames, .after (.obj [])⟩
    | t => readName s.frames [] t
  | .name done => readName s.frames done t
  | .colon done n =>
    match t with
    | .colon => some ⟨.object done n :: s.frames, .value⟩
    | _ => none
  | .after v => readAfter v s.frames t

def readAll (s : ReaderState) : List Token → Option ReaderState
  | [] => some s
  | t :: ts =>
    match readStep s t with
    | none => none
    | some s' => readAll s' ts

namespace Document

/-- The document that a list of tokens spells. -/
def ofTokens? (ts : List Token) : Option Document :=
  match readAll ⟨[], .value⟩ ts with
  | some ⟨[], .after v⟩ => some v
  | _ => none

/-- The document that a text spells. -/
def parse? (cs : List Char) : Option Document := (tokens? cs).bind ofTokens?

/-- The value of a token. An infinite number and a broken string have none. -/
def scalarValue? : Token → Option Json
  | .null => some .null
  | .bool b => some (.bool b)
  | .int n => some (.int n)
  | .double x => if x.isFinite then some (.double x) else none
  | .str s => some (.str s)
  | _ => none

mutual

/-- The value of a document that nests at most `limit` arrays and objects. The fields of an object
come out in increasing order; of equal names the last counts. -/
def value? (limit : Nat) : Document → Option Json
  | .scalar t => scalarValue? t
  | .arr elements =>
    match limit with
    | 0 => none
    | limit + 1 => (values? limit elements).map .arr
  | .obj fields =>
    match limit with
    | 0 => none
    | limit + 1 => (fieldValues? limit fields []).map .obj

def values? (limit : Nat) : List Document → Option (List Json)
  | [] => some []
  | d :: ds =>
    match d.value? limit with
    | none => none
    | some v => (values? limit ds).map (v :: ·)

def fieldValues? (limit : Nat) :
    List (Option String × Document) → List (String × Json) → Option (List (String × Json))
  | [], done => some done
  | (none, _) :: _, _ => none
  | (some n, d) :: fs, done =>
    match d.value? limit with
    | none => none
    | some v => fieldValues? limit fs (insertField n v done)

end

end Document

/-- Greatest nesting of arrays and objects. -/
def maxDepth : Nat := 127

/-- The value that a text spells. -/
def parse? (cs : List Char) : Option Json := (Document.parse? cs).bind (Document.value? maxDepth)

end SourceAudit.Json
