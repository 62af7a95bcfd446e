import SourceAudit.Yaml.Scalar
import SourceAudit.Yaml.Token

/-!
Tags, anchors and directives of a YAML text.
-/

namespace SourceAudit.Yaml

/-! ### Tags -/

/-- A character of a tag as such; brackets and commas count only in a tag that is written out. -/
def isTagChar (verbatim : Bool) (x : Char) : Bool :=
  isWord x || x ∈ [';', '/', '?', ':', '@', '&', '=', '+', '$', '.', '!', '~', '*', '\'', '(', ')']
    || (verbatim && x ∈ [',', '[', ']'])

/-- The octet of an escape at the front of a text. -/
def readOctet? : List Char → Option Nat
  | '%' :: a :: b :: _ =>
    match hexValue? a, hexValue? b with
    | some a, some b => some (a * 16 + b)
    | _, _ => none
  | _ => none

/-- Number of octets of a character by its first octet. -/
def octetCount? (n : Nat) : Option Nat :=
  if n < 0x80 then some 1
  else if n / 0x20 = 6 then some 2
  else if n / 0x10 = 14 then some 3
  else if n / 0x08 = 30 then some 4
  else none

/-- Reads the further octets of a character. -/
def readTrailing? : Nat → List Char → Option (List Nat)
  | 0, _ => some []
  | n + 1, cs =>
    match readOctet? cs with
    | none => none
    | some o => if o / 0x40 = 2 then (readTrailing? n (cs.drop 3)).map (o :: ·) else none

/-- Reads the escaped octets of one character. -/
def readOctets? (cs : List Char) : Option (List Nat) :=
  match readOctet? cs with
  | none => none
  | some o =>
    match octetCount? o with
    | none => none
    | some n => (readTrailing? (n - 1) (cs.drop 3)).map (o :: ·)

/-- Reads the characters of a tag; an escaped octet stands for itself. -/
def readTagText (verbatim : Bool) : Nat → List Char → Cursor → Option (List Char × Cursor)
  | 0, _, _ => none
  | fuel + 1, done, c =>
    match c.head? with
    | none => some (done, c)
    | some x =>
      if x = '%' then
        match readOctets? c.rest with
        | none => none
        | some octets =>
          readTagText verbatim fuel (done ++ octets.map Char.ofNat) (c.advance (3 * octets.length))
      else if isTagChar verbatim x then readTagText verbatim fuel (done ++ [x]) (c.advance 1)
      else some (done, c)

/-- Reads the characters of a tag that has begun with `start`, of which at least one must be
there. A null character, which can only be escaped, ends the tag that they spell. -/
def readTagSuffix? (verbatim : Bool) (start : List Char) (c : Cursor) :
    Option (List Char × Cursor) :=
  match readTagText verbatim (c.rest.length + 1) (start.drop 1) c with
  | none => none
  | some (text, c') =>
    if start.isEmpty && c'.index = c.index then none
    else some (text.takeWhile (· ≠ '\x00'), c')

/-- Reads a handle: an exclamation mark, and more with a second one at the end. -/
def readTagHandle? (c : Cursor) : Option (List Char × Cursor) :=
  if !c.isAt '!' then none
  else
    let (word, c) := (c.advance 1).takeWhile isWord
    if c.isAt '!' then some ('!' :: (word ++ ['!']), c.advance 1) else some ('!' :: word, c)

/-- Whether a handle has an exclamation mark at either end. -/
def isFullHandle (handle : List Char) : Bool :=
  handle.length ≥ 2 && handle.getLast? = some '!'

/-- Reads a tag: written out, with a handle, or local. -/
def readTag? (inFlow : Bool) (c : Cursor) : Option (Token × Cursor) := do
  let (t, c) ←
    if (c.advance 1).isAt '<' then do
      let (suffix, c) ← readTagSuffix? true [] (c.advance 2)
      if c.isAt '>' then some (Token.tag [] suffix, c.advance 1) else none
    else do
      let (handle, c) ← readTagHandle? c
      if isFullHandle handle then do
        let (suffix, c) ← readTagSuffix? false [] c
        some (Token.tag handle suffix, c)
      else do
        let (suffix, c) ← readTagSuffix? false handle c
        some (if suffix.isEmpty then Token.tag [] ['!'] else Token.tag ['!'] suffix, c)
  if (inFlow && c.isAt ',') || c.atSeparator then some (t, c) else none

/-! ### Anchors -/

/-- Reads the name of an anchor or an alias after its mark. -/
def readAnchorName? (c : Cursor) : Option (List Char × Cursor) :=
  let (name, c) := (c.advance 1).takeWhile isWord
  let ended := c.atSeparator
    || c.head?.any (fun x => x ∈ ['?', ':', ',', ']', '\x7d', '%', '@', '\x60'])
  if name.isEmpty || !ended then none else some (name, c)

/-! ### Directives -/

/-- Reads a number of a version, of at most nine digits. -/
def readVersionNumber? (c : Cursor) : Option (Nat × Cursor) :=
  let (digits, c) := c.takeWhile isDigit
  if digits.isEmpty || digits.length > 9 then none
  else some (digits.foldl (fun n x => n * 10 + (x.toNat - '0'.toNat)) 0, c)

def readVersion? (c : Cursor) : Option (Token × Cursor) := do
  let (major, c) ← readVersionNumber? (c.skipWhile isBlank)
  if !c.isAt '.' then none
  let (minor, c) ← readVersionNumber? (c.advance 1)
  return (.versionDirective major minor, c)

def readTagShorthand? (c : Cursor) : Option (Token × Cursor) := do
  let (handle, c) ← readTagHandle? (c.skipWhile isBlank)
  if !(isFullHandle handle || handle = ['!']) then none
  if !c.atBlank then none
  let (start, c) ← readTagSuffix? true [] (c.skipWhile isBlank)
  if !c.atSeparator then none
  return (.tagDirective handle start, c)

/-- Reads a directive with the rest of its line. -/
def readDirective? (c : Cursor) : Option (Token × Cursor) := do
  let (name, c) := (c.advance 1).takeWhile isWord
  if name.isEmpty || !c.atSeparator then none
  let (t, c) ←
    if name = "YAML".toList then readVersion? c
    else if name = "TAG".toList then readTagShorthand? c
    else none
  let c ← c.skipLineEnd?
  return (t, c)

end SourceAudit.Yaml
