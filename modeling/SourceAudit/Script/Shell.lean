import SourceAudit.Files.Disk
import SourceAudit.Script.Command

/-!
The state in which a script is run: its variables and arguments, the files, what has been written so
far, and where the numbered streams lead.
-/

namespace SourceAudit.Script

open SourceAudit.Files (Disk)

/-! ### Bytes as characters -/

/-- The characters of the numbers of the bytes. -/
def octets (bytes : List UInt8) : List Char := bytes.map fun b => Char.ofNat b.toNat

def octetsOf (s : String) : List Char := octets s.toUTF8.toList

def toBytes (cs : List Char) : List UInt8 := cs.map fun c => UInt8.ofNat c.toNat

/-- The path that octets spell. If they spell no text, it is one that leads nowhere. -/
def pathOf (cs : List Char) : String :=
  (String.fromUTF8? ⟨(toBytes cs).toArray⟩).getD "\x00"

/-! ### State -/

/-- Where a stream leads. -/
inductive Stream where
  /-- To what is collected under a number. -/
  | buffer (i : Nat)
  | file (path : String)
  | nowhere
  deriving BEq, DecidableEq, Inhabited

structure Options where
  /-- A command that fails ends the script. -/
  stopOnFailure : Bool := false
  /-- A variable that is not set is a mistake. -/
  refuseUnset : Bool := false
  /-- Commands are written to the errors before they run. -/
  trace : Bool := false
  deriving BEq, DecidableEq, Inhabited

structure Shell where
  disk : Disk
  /-- The name of the script. -/
  name : List Char := "sh".toList
  arguments : List (List Char) := []
  bindings : List (List Char × List Char) := []
  functions : List (List Char × Command) := []
  options : Options := {}
  /-- How the last command ended; zero is success. -/
  status : Nat := 0
  buffers : Array (List Char) := #[[], []]
  streams : List (Nat × Stream) := [(1, .buffer 0), (2, .buffer 1)]
  /-- What is left of the input. -/
  input : List Char := []
  /-- Whether `echo` reads escapes. -/
  escapes : Bool := true
  /-- What is run when the script ends. -/
  atExit : List Char := []
  /-- Whether a word could not be used, so that the script has to end. -/
  broken : Bool := false
  deriving Inhabited

/-- The number of the running script. -/
def processNumber : List Char := "4711".toList

namespace Shell

def done (s : Shell) (status : Nat) : Shell := { s with status }

/-- Adds to the end of a file. -/
def addToFile (s : Shell) (path : String) (text : List Char) : Shell :=
  match s.disk.read path with
  | .error _ => s
  | .ok old =>
    match s.disk.write path ⟨(old.toList ++ toBytes text).toArray⟩ with
    | .error _ => s
    | .ok disk => { s with disk }

def stream (s : Shell) (n : Nat) : Stream :=
  ((s.streams.find? fun e => e.1 = n).map (·.2)).getD .nowhere

/-- Writes to a stream. -/
def write (s : Shell) (n : Nat) (text : List Char) : Shell :=
  match s.stream n with
  | .buffer i => { s with buffers := s.buffers.modify i (· ++ text) }
  | .file path => s.addToFile path text
  | .nowhere => s

def out (s : Shell) (text : List Char) : Shell := s.write 1 text

/-- Writes a line about a mistake. -/
def complain (s : Shell) (text : List Char) : Shell := s.write 2 (s.name ++ ": ".toList ++ text ++ ['\n'])

def redirectTo (s : Shell) (n : Nat) (target : Stream) : Shell :=
  { s with streams := (n, target) :: s.streams.filter fun e => e.1 ≠ n }

/-- The names in a directory, in order. -/
def namesIn (s : Shell) (dir : List Char) : List (List Char) :=
  match s.disk.locate (pathOf dir) with
  | .ok (.found place) =>
    (s.disk.entries.filterMap fun ((p, _) : Files.Place × Files.Entry) =>
      match p.getLast? with
      | some name => if p.dropLast = place then some (octetsOf name) else none
      | none => none).mergeSort fun a b => String.ofList a ≤ String.ofList b
  | _ => []

/-! ### Variables -/

def get? (s : Shell) (name : List Char) : Option (List Char) :=
  (s.bindings.find? fun v => v.1 = name).map (·.2)

def set (s : Shell) (name value : List Char) : Shell :=
  { s with bindings := (name, value) :: s.bindings.filter fun v => v.1 ≠ name }

def unset (s : Shell) (name : List Char) : Shell :=
  { s with
    bindings := s.bindings.filter fun v => v.1 ≠ name
    functions := s.functions.filter fun f => f.1 ≠ name }

/-- What divides words. -/
def separators (s : Shell) : List Char := (s.get? "IFS".toList).getD [' ', '\t', '\n']

/-- The options that are set, as letters. -/
def flags (s : Shell) : List Char :=
  (if s.options.stopOnFailure then ['e'] else []) ++ (if s.options.refuseUnset then ['u'] else [])
    ++ (if s.options.trace then ['x'] else [])

/-- The value of a parameter, if it is set. -/
def parameter? (s : Shell) (name : List Char) : Option (List Char) :=
  match name with
  | ['#'] => some (Nat.toDigits 10 s.arguments.length)
  | ['?'] => some (Nat.toDigits 10 s.status)
  | ['-'] => some s.flags
  | ['$'] => some processNumber
  | ['!'] => none
  | ['0'] => some s.name
  | ['@'] | ['*'] =>
    if s.arguments.isEmpty then none
    else some (" ".toList.intercalate s.arguments)
  | _ =>
    if name.all Char.isDigit then
      s.arguments[name.foldl (fun n c => n * 10 + (c.toNat - '0'.toNat)) 0 - 1]?
    else s.get? name

/-! ### Redirections -/

/-- Opens a file for output. -/
def openOutput (s : Shell) (n : Nat) (path : List Char) (keep : Bool) : Except (List Char) Shell :=
  if path = "/dev/null".toList then .ok (s.redirectTo n .nowhere)
  else if path = "/dev/stdout".toList then .ok (s.redirectTo n (s.stream 1))
  else if path = "/dev/stderr".toList then .ok (s.redirectTo n (s.stream 2))
  else if keep && s.disk.isFile (pathOf path) then .ok (s.redirectTo n (.file (pathOf path)))
  else
    match s.disk.write (pathOf path) ⟨#[]⟩ with
    | .error _ => .error ("cannot create ".toList ++ path)
    | .ok disk => .ok ({ s with disk }.redirectTo n (.file (pathOf path)))

/-- Carries out a redirection to the given target. -/
def redirect (s : Shell) (r : Redirect) (target : List Char) : Except (List Char) Shell :=
  match r.kind with
  | .here => .ok (if r.stream = 0 then { s with input := target } else s)
  | .output => s.openOutput r.stream target false
  | .append => s.openOutput r.stream target true
  | .input =>
    if r.stream ≠ 0 then .ok s
    else if target = "/dev/null".toList then .ok { s with input := [] }
    else
      match s.disk.read (pathOf target) with
      | .error _ => .error ("cannot open ".toList ++ target)
      | .ok content => .ok { s with input := octets content.toList }
  | .duplicate =>
    if target = ['-'] then
      .ok (if r.stream = 0 then { s with input := [] } else s.redirectTo r.stream .nowhere)
    else
      match target with
      | [d] =>
        if d = '0' || !d.isDigit then .ok s
        else .ok (s.redirectTo r.stream (s.stream (d.toNat - '0'.toNat)))
      | _ => .ok s

end Shell
end SourceAudit.Script
