import SourceAudit.Yaml.Token

/-!
The events of a YAML text: its documents, collections, scalars and aliases in the order in which
they begin and end. What may come next is a list of contexts, the innermost first; every step takes
the first of them and gives one event.
-/

namespace SourceAudit.Yaml

/-- A scalar as it is written. -/
structure Scalar where
  text : List Char
  style : ScalarStyle := .plain
  tag : Option (List Char) := none
  deriving BEq, DecidableEq, Inhabited

inductive Event where
  | documentStart
  | documentEnd
  | reference (name : List Char)
  | scalar (anchor : Option (List Char)) (s : Scalar)
  | sequenceStart (anchor : Option (List Char))
  | sequenceEnd
  | mappingStart (anchor : Option (List Char))
  | mappingEnd
  deriving BEq, DecidableEq, Inhabited

/-- What is expected next. -/
inductive Context where
  /-- A document; the first one needs no marker. -/
  | document (first : Bool)
  | documentContent
  | documentEnd
  | blockNode
  | blockSequenceEntry
  | indentlessSequenceEntry
  | blockMappingKey
  | blockMappingValue
  | flowSequenceEntry (first : Bool)
  | flowSequenceKey
  | flowSequenceValue
  | flowSequenceMappingEnd
  | flowMappingKey (first : Bool)
  | flowMappingValue
  | flowMappingNoValue
  deriving BEq, DecidableEq

structure EventReader where
  tokens : List Token
  contexts : List Context := [.document true]
  /-- Tag handles and what they stand for. -/
  handles : List (List Char × List Char) := []

namespace EventReader

/-- Outcome of a step: an event and the new state, or the end. -/
inductive Step where
  | event (e : Event) (r : EventReader)
  | done

def peek (r : EventReader) : Token := r.tokens.headD .streamEnd

/-- The next token is one of those given. -/
def peekIs (r : EventReader) (ts : List Token) : Bool := ts.contains r.peek

def skip (r : EventReader) : EventReader := { r with tokens := r.tokens.tail }

/-- Goes on with other contexts in front. -/
def enter (r : EventReader) (contexts : List Context) : EventReader := { r with contexts }

/-- An empty plain scalar where a node is left out. -/
def emptyScalar (r : EventReader) (contexts : List Context) : Option Step :=
  some (.event (.scalar none { text := [] }) (r.enter contexts))

/-! ### Nodes -/

/-- Anchor and tag of a node. -/
structure Properties where
  anchor : Option (List Char) := none
  tag : Option (List Char × List Char) := none

/-- Reads anchor and tag in either order. -/
def readProperties (r : EventReader) : Properties × EventReader :=
  match r.tokens with
  | .anchor a :: .tag h s :: ts => (⟨some a, some (h, s)⟩, { r with tokens := ts })
  | .tag h s :: .anchor a :: ts => (⟨some a, some (h, s)⟩, { r with tokens := ts })
  | .anchor a :: ts => (⟨some a, none⟩, { r with tokens := ts })
  | .tag h s :: ts => (⟨none, some (h, s)⟩, { r with tokens := ts })
  | _ => ({}, r)

/-- The full tag; none if its handle is not known. -/
def resolveTag? (r : EventReader) : Option (List Char × List Char) → Option (Option (List Char))
  | none => some none
  | some ([], suffix) => some (some suffix)
  | some (handle, suffix) =>
    (r.handles.find? fun h => h.1 = handle).map fun h => some (h.2 ++ suffix)

/-- Reads a node. Block collections are taken only if `block` is set, and a sequence without an
indentation of its own only if `indentless` is set. -/
def readNode (block indentless : Bool) (contexts : List Context) (r : EventReader) : Option Step :=
  match r.peek with
  | .reference name => some (.event (.reference name) (r.skip.enter contexts))
  | _ =>
    let (p, r) := r.readProperties
    match r.resolveTag? p.tag with
    | none => none
    | some tag =>
      match r.peek with
      | .scalar style text =>
        some (.event (.scalar p.anchor { text, style, tag }) (r.skip.enter contexts))
      | .flowSequenceStart =>
        some (.event (.sequenceStart p.anchor) (r.skip.enter (.flowSequenceEntry true :: contexts)))
      | .flowMappingStart =>
        some (.event (.mappingStart p.anchor) (r.skip.enter (.flowMappingKey true :: contexts)))
      | t =>
        if indentless && t = .blockEntry then
          some (.event (.sequenceStart p.anchor) (r.enter (.indentlessSequenceEntry :: contexts)))
        else if block && t = .blockSequenceStart then
          some (.event (.sequenceStart p.anchor)
            (r.skip.enter (.blockSequenceEntry :: contexts)))
        else if block && t = .blockMappingStart then
          some (.event (.mappingStart p.anchor) (r.skip.enter (.blockMappingKey :: contexts)))
        else if p.anchor.isSome || tag.isSome then
          some (.event (.scalar p.anchor { text := [], tag }) (r.enter contexts))
        else none

/-! ### Documents -/

/-- The handles that are always known. -/
def standardHandles : List (List Char × List Char) :=
  [(['!'], ['!']), (['!', '!'], "tag:yaml.org,2002:".toList)]

/-- Reads the directives in front of a document; `versioned` is set after a version. -/
def readDirectives? (versioned : Bool) (handles : List (List Char × List Char)) :
    List Token → Option (List (List Char × List Char) × List Token)
  | .versionDirective major minor :: ts =>
    if versioned || major ≠ 1 || (minor ≠ 1 && minor ≠ 2) then none
    else readDirectives? true handles ts
  | .tagDirective handle start :: ts =>
    if handles.any (fun h => h.1 = handle) then none
    else readDirectives? versioned (handles ++ [(handle, start)]) ts
  | ts => some (handles ++ standardHandles, ts)

/-- A token that a document without a marker cannot begin with. -/
def isDocumentPart : Token → Bool
  | .versionDirective .. | .tagDirective .. | .documentStart | .streamEnd => true
  | _ => false

def readDocument (first : Bool) (contexts : List Context) (r : EventReader) : Option Step :=
  let r := if first then r else { r with tokens := r.tokens.dropWhile (· = .documentEnd) }
  if first && !isDocumentPart r.peek then
    some (.event .documentStart
      { r with contexts := .blockNode :: .documentEnd :: contexts, handles := standardHandles })
  else if r.peek = .streamEnd then some .done
  else
    match readDirectives? false [] r.tokens with
    | some (handles, .documentStart :: ts) =>
      some (.event .documentStart
        ⟨ts, .documentContent :: .documentEnd :: contexts, handles⟩)
    | _ => none

/-! ### Steps -/

def readBlockSequenceEntry (contexts : List Context) (r : EventReader) : Option Step :=
  match r.peek with
  | .blockEntry =>
    let r := r.skip
    let after := .blockSequenceEntry :: contexts
    if r.peek = .blockEntry || r.peek = .blockEnd then r.emptyScalar after
    else r.readNode true false after
  | .blockEnd => some (.event .sequenceEnd (r.skip.enter contexts))
  | _ => none

def readIndentlessEntry (contexts : List Context) (r : EventReader) : Option Step :=
  match r.peek with
  | .blockEntry =>
    let r := r.skip
    let after := .indentlessSequenceEntry :: contexts
    if r.peekIs [.blockEntry, .key, .value, .blockEnd] then r.emptyScalar after
    else r.readNode true false after
  | _ => some (.event .sequenceEnd (r.enter contexts))

def readBlockMappingKey (contexts : List Context) (r : EventReader) : Option Step :=
  match r.peek with
  | .key =>
    let r := r.skip
    let after := .blockMappingValue :: contexts
    if r.peekIs [.key, .value, .blockEnd] then r.emptyScalar after
    else r.readNode true true after
  | .blockEnd => some (.event .mappingEnd (r.skip.enter contexts))
  | _ => none

def readBlockMappingValue (contexts : List Context) (r : EventReader) : Option Step :=
  let after := .blockMappingKey :: contexts
  match r.peek with
  | .value =>
    let r := r.skip
    if r.peekIs [.key, .value, .blockEnd] then r.emptyScalar after
    else r.readNode true true after
  | _ => r.emptyScalar after

/-- Steps over the comma between two entries; the first entry has none before it. -/
def readComma? (first : Bool) (r : EventReader) : Option EventReader :=
  if first then some r else if r.peek = .flowEntry then some r.skip else none

def readFlowSequenceEntry (first : Bool) (contexts : List Context) (r : EventReader) :
    Option Step :=
  if r.peek = .flowSequenceEnd then some (.event .sequenceEnd (r.skip.enter contexts))
  else
    match r.readComma? first with
    | none => none
    | some r =>
      match r.peek with
      | .key =>
        some (.event (.mappingStart none)
          (r.skip.enter (.flowSequenceKey :: .flowSequenceEntry false :: contexts)))
      | .flowSequenceEnd => some (.event .sequenceEnd (r.skip.enter contexts))
      | _ => r.readNode false false (.flowSequenceEntry false :: contexts)

/-- The key of a pair in a flow sequence. If it is left out, the token there is stepped over. -/
def readFlowSequenceKey (contexts : List Context) (r : EventReader) : Option Step :=
  let after := .flowSequenceValue :: contexts
  if r.peekIs [.value, .flowEntry, .flowSequenceEnd] then r.skip.emptyScalar after
  else r.readNode false false after

def readFlowSequenceValue (contexts : List Context) (r : EventReader) : Option Step :=
  let after := .flowSequenceMappingEnd :: contexts
  if r.peek = .value then
    let r := r.skip
    if r.peekIs [.flowEntry, .flowSequenceEnd] then r.emptyScalar after
    else r.readNode false false after
  else r.emptyScalar after

def readFlowMappingKey (first : Bool) (contexts : List Context) (r : EventReader) : Option Step :=
  if r.peek = .flowMappingEnd then some (.event .mappingEnd (r.skip.enter contexts))
  else
    match r.readComma? first with
    | none => none
    | some r =>
      match r.peek with
      | .key =>
        let r := r.skip
        let after := .flowMappingValue :: contexts
        if r.peekIs [.value, .flowEntry, .flowMappingEnd] then r.emptyScalar after
        else r.readNode false false after
      | .flowMappingEnd => some (.event .mappingEnd (r.skip.enter contexts))
      | _ => r.readNode false false (.flowMappingNoValue :: contexts)

def readFlowMappingValue (contexts : List Context) (r : EventReader) : Option Step :=
  let after := .flowMappingKey false :: contexts
  if r.peek = .value then
    let r := r.skip
    if r.peekIs [.flowEntry, .flowMappingEnd] then r.emptyScalar after
    else r.readNode false false after
  else r.emptyScalar after

/-- Tokens after which the content of a document is left out. -/
def endsContent : Token → Bool
  | .versionDirective .. | .tagDirective .. | .documentStart | .documentEnd | .streamEnd => true
  | _ => false

/-- Gives the next event. -/
def step (r : EventReader) : Option Step :=
  match r.contexts with
  | [] => some .done
  | context :: contexts =>
    match context with
    | .document first => r.readDocument first contexts
    | .documentContent =>
      if endsContent r.peek then r.emptyScalar contexts else r.readNode true false contexts
    | .documentEnd =>
      let r := if r.peek = .documentEnd then r.skip else r
      some (.event .documentEnd (r.enter (.document false :: contexts)))
    | .blockNode => r.readNode true false contexts
    | .blockSequenceEntry => r.readBlockSequenceEntry contexts
    | .indentlessSequenceEntry => r.readIndentlessEntry contexts
    | .blockMappingKey => r.readBlockMappingKey contexts
    | .blockMappingValue => r.readBlockMappingValue contexts
    | .flowSequenceEntry first => r.readFlowSequenceEntry first contexts
    | .flowSequenceKey => r.readFlowSequenceKey contexts
    | .flowSequenceValue => r.readFlowSequenceValue contexts
    | .flowSequenceMappingEnd => some (.event .mappingEnd (r.enter contexts))
    | .flowMappingKey first => r.readFlowMappingKey first contexts
    | .flowMappingValue => r.readFlowMappingValue contexts
    | .flowMappingNoValue => r.emptyScalar (.flowMappingKey false :: contexts)

/-- Gives all events; none if the tokens do not make up documents. -/
def run? : Nat → List Event → EventReader → Option (List Event)
  | 0, _, _ => none
  | fuel + 1, done, r =>
    match r.step with
    | none => none
    | some .done => some done.reverse
    | some (.event e r) => run? fuel (e :: done) r

end EventReader

/-- The events of a list of tokens. Every token gives rise to at most four events. -/
def events? (tokens : List Token) : Option (List Event) :=
  EventReader.run? (4 * tokens.length + 8) [] { tokens }

end SourceAudit.Yaml
