import SourceAudit.Files.Fault
import SourceAudit.Files.Path

/-!
The files and directories of a machine, and how a path leads to one of them.
-/

namespace SourceAudit.Files

/-- The names of the directories from the root on, and last the name of the entry itself. -/
abbrev Place := List String

/-- What stands at a place. Modes are permission bits. -/
inductive Entry where
  | directory (mode : Nat)
  | file (mode : Nat) (content : ByteArray)
  deriving Inhabited

namespace Entry

def isDirectory : Entry → Bool
  | .directory _ => true
  | .file _ _ => false

/-- The mode of a directory. -/
def directoryMode? : Entry → Option Nat
  | .directory m => some m
  | .file _ _ => none

def mode : Entry → Nat
  | .directory m => m
  | .file m _ => m

def withMode (m : Nat) : Entry → Entry
  | .directory _ => .directory m
  | .file _ content => .file m content

end Entry

/-- Mode of a new directory, `rwxr-xr-x`. -/
def directoryMode : Nat := 0o755

/-- Mode of a new file, `rw-r--r--`. -/
def fileMode : Nat := 0o644

/-! The permission bits of the owner. -/

def readBit : Nat := 0o400

def writeBit : Nat := 0o200

/-- Of a directory: whether paths may go on from it. -/
def searchBit : Nat := 0o100

/-- Entries by place, and the place that relative paths start from. The root has no entry of its
own: it is always there. All entries have one owner, who is the one that uses the disk. -/
structure Disk where
  entries : List (Place × Entry)
  workingPlace : Place
  /-- Whether the permission bits hold. They do not if the owner is a superuser. -/
  guarded : Bool := false
  deriving Inhabited

namespace Disk

/-- Whether an entry of a mode may be used in the way that a permission bit is for. -/
def grants (d : Disk) (bit mode : Nat) : Bool := !d.guarded || mode &&& bit ≠ 0

/-- What stands at a place. -/
def get? (d : Disk) (p : Place) : Option Entry :=
  if p.isEmpty then some (.directory directoryMode)
  else (d.entries.find? fun e => e.1 = p).map (·.2)

/-- Takes the entry of a place away. -/
def erase (d : Disk) (p : Place) : Disk := { d with entries := d.entries.filter fun e => e.1 ≠ p }

/-- Puts an entry at a place. -/
def put (d : Disk) (p : Place) (e : Entry) : Disk :=
  { d with entries := (p, e) :: (d.erase p).entries }

/-- Takes all entries below a place away. -/
def eraseBelow (d : Disk) (p : Place) : Disk :=
  { d with entries := d.entries.filter fun e => !(p.isPrefixOf e.1 && p.length < e.1.length) }

/-- An empty directory that is also the place relative paths start from. -/
def emptyDirectory (name : String) : Disk :=
  { entries := [([name], .directory directoryMode)], workingPlace := [name] }

/-! ### Following a path -/

/-- Where a path leads: to an entry, or to a free name in a directory. -/
inductive Spot where
  | found (place : Place)
  /-- Nothing stands there; `slash` says that the path ends with a slash. -/
  | vacant (place : Place) (slash : Bool)
  deriving BEq, DecidableEq

/-- Longest name of an entry, in bytes. -/
def longestName : Nat := 255

/-- Least size of a path that is too long. -/
def pathLimit : Nat := 4096

/-- What bars a path from going on with a part from a place, if anything does. A slash alone asks for
a directory, everything else for one that may be searched. -/
def barrier? (d : Disk) (p : Place) (part : List Char) : Option Fault :=
  match (d.get? p).bind Entry.directoryMode? with
  | none => some .notDirectory
  | some mode => if part.isEmpty || d.grants searchBit mode then none else some .denied

/-- Follows the parts of a path from a place on. Every place that is left again has to be a
directory, and only the last name may be free. -/
def follow (d : Disk) (p : Place) : List (List Char) → Except Fault Spot
  | [] => .ok (.found p)
  | part :: rest =>
    match d.barrier? p part with
    | some f => .error f
    | none =>
      if part = [] ∨ part = ['.'] then follow d p rest
      else if part = ['.', '.'] then follow d p.dropLast rest
      else
        let name := String.ofList part
        if longestName < name.utf8ByteSize then .error .nameTooLong
        else if (d.get? (p ++ [name])).isSome then follow d (p ++ [name]) rest
        else if rest.all List.isEmpty then .ok (.vacant (p ++ [name]) (!rest.isEmpty))
        else .error .notFound

/-- Where a path leads. -/
def locate (d : Disk) (path : String) : Except Fault Spot :=
  if path.isEmpty then .error .notFound
  else if path.toList.contains '\x00' then .error .nulInPath
  else if pathLimit ≤ path.utf8ByteSize then .error .nameTooLong
  else d.follow (if Path.isAbsolute path then [] else d.workingPlace) (Path.parts path)

/-- The place that a path leads to and what stands there. -/
def entry (d : Disk) (path : String) : Except Fault (Place × Entry) :=
  match d.locate path with
  | .error f => .error f
  | .ok (.vacant _ _) => .error .notFound
  | .ok (.found p) =>
    match d.get? p with
    | none => .error .notFound
    | some e => .ok (p, e)

/-- Whether something stands at the end of a path. -/
def has (d : Disk) (path : String) : Bool := (d.entry path).isOk

def isDirectory (d : Disk) (path : String) : Bool :=
  match d.entry path with
  | .ok (_, e) => e.isDirectory
  | .error _ => false

def isFile (d : Disk) (path : String) : Bool :=
  match d.entry path with
  | .ok (_, e) => !e.isDirectory
  | .error _ => false

/-! ### Reading -/

/-- The content of a file that may be read. -/
def read (d : Disk) (path : String) : Except Fault ByteArray :=
  match d.entry path with
  | .error f => .error f
  | .ok (_, e) =>
    if !d.grants readBit e.mode then .error .denied
    else
      match e with
      | .directory _ => .error .isDirectory
      | .file _ content => .ok content

/-- The content of a file that holds text. -/
def readText (d : Disk) (path : String) : Except Fault String :=
  match d.read path with
  | .error f => .error f
  | .ok bytes =>
    match String.fromUTF8? bytes with
    | none => .error .notText
    | some s => .ok s

/-- The permission bits of an entry. -/
def mode (d : Disk) (path : String) : Except Fault Nat :=
  match d.entry path with
  | .error f => .error f
  | .ok (_, e) => .ok e.mode

/-- A place below another one, as a path from there; directories end with a slash. -/
def listed (base : Place) (e : Place × Entry) : Option String :=
  if base.isPrefixOf e.1 && base.length < e.1.length then
    some ("/".intercalate (e.1.drop base.length) ++ (if e.2.isDirectory then "/" else ""))
  else none

/-- All entries below the working directory, in increasing order of their paths. -/
def listing (d : Disk) : List String :=
  (d.entries.filterMap (listed d.workingPlace)).mergeSort fun a b => !(b < a)

/-! ### Changing

Changes of the names in a directory may be refused by its bits; that is left to the machine that the
disk is on. -/

/-- Makes one directory. -/
def makeDirectory (d : Disk) (path : String) : Except Fault Disk :=
  match d.locate path with
  | .error f => .error f
  | .ok (.found _) => .error .alreadyThere
  | .ok (.vacant p _) => .ok (d.put p (.directory directoryMode))

/-- Makes one directory, unless the machine refuses to. -/
def tryDirectory (refuse : String → Option Fault) (d : Disk) (path : String) : Except Fault Disk :=
  match d.makeDirectory path with
  | .error f => .error f
  | .ok d' =>
    match refuse path with
    | some f => .error f
    | none => .ok d'

/-- Makes the first of the given directories after those that follow it, as far as they are not
there yet. What has been made stays if a later one fails. -/
def makeDirectories (refuse : String → Option Fault) (d : Disk) : List String → Disk × Option Fault
  | [] => (d, none)
  | path :: above =>
    match d.tryDirectory refuse path with
    | .ok d' => (d', none)
    | .error .notFound =>
      match d.makeDirectories refuse above with
      | (d', some f) => (d', some f)
      | (d', none) =>
        match d'.tryDirectory refuse path with
        | .ok d'' => (d'', none)
        | .error f => if d'.isDirectory path then (d', none) else (d', some f)
    | .error f => if d.isDirectory path then (d, none) else (d, some f)

/-- Makes a directory and all directories above it that are not there yet, as far as the machine
does not refuse one. -/
def makePathUnless (refuse : String → Option Fault) (d : Disk) (path : String) :
    Disk × Option Fault :=
  d.makeDirectories refuse (Path.ancestors path)

/-- Makes a directory and all directories above it that are not there yet. -/
def makePath (d : Disk) (path : String) : Disk × Option Fault :=
  d.makePathUnless (fun _ => none) path

/-- Where a path leads, the slashes at its end apart. -/
def locateTrimmed (d : Disk) (path : String) : Except Fault Spot :=
  let trimmed := String.ofList (trimSlashes path.toList)
  d.locate (if trimmed.isEmpty then path else trimmed)

/-- Writes a file; one that is already there keeps its mode. -/
def write (d : Disk) (path : String) (content : ByteArray) : Except Fault Disk :=
  match d.locateTrimmed path with
  | .error f => .error f
  | .ok spot =>
    if Path.endsInSlash path then .error .isDirectory
    else
      match spot with
      | .vacant p _ => .ok (d.put p (.file fileMode content))
      | .found p =>
        match d.get? p with
        | some (.file m _) =>
          if d.grants writeBit m then .ok (d.put p (.file m content)) else .error .denied
        | _ => .error .isDirectory

/-- Sets the permission bits of an entry. -/
def setMode (d : Disk) (path : String) (m : Nat) : Except Fault Disk :=
  match d.entry path with
  | .error f => .error f
  | .ok (p, e) => .ok (d.put p (e.withMode m))

/-- Moves the file at a place to the end of a path, over the file that may stand there. -/
def move (d : Disk) (source : Place) (path : String) : Except Fault Disk :=
  match d.get? source with
  | none => .error .notFound
  | some e =>
    match d.locateTrimmed path with
    | .error .nulInPath => .error .invalidArgument
    | .error f => .error f
    | .ok spot =>
      if Path.lastPart path = [] ∨ Path.lastPart path = ['.'] ∨ Path.lastPart path = ['.', '.'] then
        .error .busy
      else if Path.endsInSlash path then .error .notDirectory
      else
        match spot with
        | .vacant p _ => .ok ((d.erase source).put p e)
        | .found p =>
          if (d.get? p).any Entry.isDirectory then .error .isDirectory
          else .ok ((d.erase source).put p e)

/-- Removes a file, or a directory with all that it holds. The working directory itself stays. -/
def remove (d : Disk) (path : String) : Disk × Option Fault :=
  match d.entry path with
  | .error f => (d, some f)
  | .ok (p, e) =>
    if !e.isDirectory then (d.erase p, none)
    else if Path.lastPart path = ['.'] then (d.eraseBelow p, some .invalidArgument)
    else ((d.eraseBelow p).erase p, none)

end Disk
end SourceAudit.Files
