/-!
Paths as texts. A path is its parts between slashes; empty parts do not count, nor does a single
dot except at the very start.
-/

namespace SourceAudit.Files

/-- The parts between slashes; there is always at least one. -/
def splitSlash : List Char → List (List Char)
  | [] => [[]]
  | c :: cs =>
    if c = '/' then [] :: splitSlash cs
    else
      match splitSlash cs with
      | [] => [[c]]
      | p :: ps => (c :: p) :: ps

/-- The parts with slashes between them. -/
def joinSlash : List (List Char) → List Char
  | [] => []
  | [p] => p
  | p :: ps => p ++ '/' :: joinSlash ps

/-- The text up to the slashes at its end. -/
def trimSlashes (cs : List Char) : List Char := (cs.reverse.dropWhile (· = '/')).reverse

namespace Path

def parts (path : String) : List (List Char) := splitSlash path.toList

def isAbsolute (path : String) : Bool := path.toList.head? = some '/'

/-- Whether the path ends with a slash. -/
def endsInSlash (path : String) : Bool := path.toList.getLast? = some '/'

/-- The last part, slashes at the end apart. -/
def lastPart (path : String) : List Char :=
  ((splitSlash (trimSlashes path.toList)).getLast?).getD []

/-- A part that counts, where `first` says that it is the first one. -/
def counts (first : Bool) (part : List Char) : Bool :=
  !part.isEmpty && (first || part ≠ ['.'])

/-- The initial runs of parts that end in a part that counts, longest first; `before` are the parts
already passed, nearest first. -/
def runs (before : List (List Char)) : List (List Char) → List (List (List Char))
  | [] => []
  | p :: ps =>
    let longer := runs (p :: before) ps
    if counts before.isEmpty p then longer ++ [(p :: before).reverse] else longer

/-- The path and the paths of all directories above it that it names, longest first. The working
directory and the root are not among them. -/
def ancestors (path : String) : List String :=
  match runs [] (parts path) with
  | [] => []
  | _ :: above => path :: above.map fun ps => String.ofList (joinSlash ps)

/-- The path without its last part that counts; a path without such a part has no parent. -/
def parent? (path : String) : Option String :=
  match ancestors path with
  | [] => none
  | [_] => some (if isAbsolute path then "/" else "")
  | _ :: p :: _ => some p

/-- The parts that count. -/
def components (path : String) : List (List Char) :=
  match parts path with
  | [] => []
  | p :: ps => (if counts true p then [p] else []) ++ ps.filter (counts false)

/-- Two texts for the same path. -/
def same (a b : String) : Bool := isAbsolute a = isAbsolute b && components a = components b

/-- A name within a directory. -/
def within (dir name : String) : String :=
  if dir.isEmpty || endsInSlash dir then dir ++ name else dir ++ "/" ++ name

end Path
end SourceAudit.Files
