import SourceAudit.CommandLine.Usage

/-!
Reading command lines. The value of a setting stands in the same word, or is the next word unless
that begins with a dash; it is looked at only when the next setting or the end is reached. After two
dashes alone no word is a setting.
-/

namespace SourceAudit.CommandLine

open SourceAudit.Audit (Sector)

/-- The value of a setting. -/
inductive Value where
  | on
  | text (s : String)
  | sector (s : Sector)
  | number (n : Nat)
  deriving BEq, DecidableEq, Inhabited

/-- Reads the value of a setting. -/
def readValue (s : Setting) (word : String) : Except Usage Value :=
  match s with
  | .sector =>
    match readSector? word with
    | some sector => .ok (.sector sector)
    | none => .error (if word.isEmpty then .noValue s else .invalidSector word)
  | .threshold | .limit =>
    match readNumber word.toList with
    | .ok n => .ok (.number n)
    | .error f => .error (.invalidNumber s word f)
  | .format => .ok (.text word)
  | _ => if word.isEmpty then .error (.noValue s) else .ok (.text word)

/-- What has been read of a command. -/
structure Reading where
  level : Level
  given : List (Setting × Value) := []
  /-- A setting that has been named, and the word for its value if that has come; it does not count
  yet. -/
  pending : Option (Setting × Option String) := none
  deriving BEq, DecidableEq, Inhabited

namespace Reading

def value? (r : Reading) (s : Setting) : Option Value :=
  (r.given.find? fun g => g.1 = s).map (·.2)

/-- Lets a setting count. -/
def record (r : Reading) (s : Setting) (word : Option String) : Except Usage Reading :=
  match s with
  | .help => .error (.help r.level)
  | .version => .error .version
  | _ =>
    if s.takesValue && word.isNone then .error (.noValue s)
    else if (r.value? s).isSome then .error (.repeated s)
    else
      match word with
      | none => .ok { r with given := r.given ++ [(s, .on)] }
      | some w =>
        match readValue s w with
        | .error u => .error u
        | .ok v => .ok { r with given := r.given ++ [(s, v)] }

/-- Lets the pending setting count. -/
def settle (r : Reading) : Except Usage Reading :=
  match r.pending with
  | none => .ok r
  | some (s, word) => { r with pending := none }.record s word

/-- Lets the pending setting and then another one count. -/
def take (r : Reading) (s : Setting) (word : Option String) : Except Usage Reading :=
  match r.settle with
  | .error u => .error u
  | .ok r => r.record s word

/-- Lets the pending setting count and makes another one pending. -/
def await (r : Reading) (s : Setting) : Except Usage Reading :=
  match r.settle with
  | .error u => .error u
  | .ok r => .ok { r with pending := some (s, none) }

/-- Reads a word after its two dashes. -/
def readLong (r : Reading) (body : List Char) : Except Usage Reading :=
  let name := body.takeWhile (· ≠ '=')
  let attached := body.drop name.length
  match r.level.settings.find? fun s => s.word.toList = name with
  | none => .error (.unknownArgument (String.ofList ('-' :: '-' :: name)))
  | some s =>
    match s.takesValue, attached with
    | true, [] => r.await s
    | true, _ :: v => r.take s (some (String.ofList v))
    | false, [] => r.take s none
    | false, _ :: v => .error (.unneededValue s (String.ofList v))

/-- Reads letters after one dash. A letter that takes a value takes what follows it in the word. -/
def readShort (r : Reading) : List Char → Except Usage Reading
  | [] => .ok r
  | c :: cs =>
    match r.level.settings.find? fun s => s.letter? = some c with
    | none => .error (.unknownArgument (String.ofList ['-', c]))
    | some s =>
      if s.takesValue then
        match cs with
        | [] => r.await s
        | '=' :: v => r.take s (some (String.ofList v))
        | v => r.take s (some (String.ofList v))
      else
        match r.take s none with
        | .error u => .error u
        | .ok r => readShort r cs

/-- A word that belongs to no setting. After two dashes the name of a command is such a word too. -/
def stray (r : Reading) (afterDashes : Bool) (word : String) : Usage :=
  match r.level with
  | .program =>
    if afterDashes && ((Level.ofName? word).isSome || word = "help") then .unknownArgument word
    else .unknownCommand word
  | _ => .unknownArgument word

/-- Reads a word that is not two dashes alone. -/
def readWord (r : Reading) (word : String) : Except Usage Reading :=
  let plain : Unit → Except Usage Reading := fun _ =>
    match r.pending with
    | some (s, none) => .ok { r with pending := some (s, some word) }
    | _ => .error (r.stray false word)
  match word.toList with
  | '-' :: '-' :: cs => r.readLong cs
  | '-' :: c :: cs => r.readShort (c :: cs)
  | _ => plain ()

/-- Reads the words of a command. -/
def readWords (r : Reading) : List String → Except Usage Reading
  | [] => r.settle
  | word :: words =>
    if word = "--" then
      match words with
      | [] => r.settle
      | next :: _ => .error (r.stray true next)
    else
      match r.readWord word with
      | .error u => .error u
      | .ok r => readWords r words

/-- Help on the command that the words name. -/
def helpOn : List String → Usage
  | [] => .help .program
  | name :: rest =>
    match Level.ofName? name, rest with
    | some level, [] => .help level
    | some _, next :: _ => .unknownCommand next
    | none, [] => if name = "help" then .helpOnHelp else .unknownCommand name
    | none, next :: _ => .unknownCommand (if name = "help" then next else name)

/-- Reads a command line up to the name of a command, and then the words of that command. -/
def readProgram (r : Reading) : List String → Except Usage Reading
  | [] => .error (if r.given.isEmpty then .nothingGiven else .noCommand)
  | word :: words =>
    match Level.ofName? word with
    | some level => readWords { level := level } words
    | none =>
      if word = "help" then .error (helpOn words)
      else if word = "--" then
        match words with
        | [] => .error (if r.given.isEmpty then .nothingGiven else .noCommand)
        | next :: _ => .error (r.stray true next)
      else
        match r.readWord word with
        | .error u => .error u
        | .ok r => readProgram r words

end Reading

/-! ### What is asked for -/

structure AnalyzeRequest where
  file : String
  sector : Option Sector := none
  store : Option String := none
  config : Option String := none
  format : String := "json"
  threshold : Option Nat := none
  lint : Bool := false
  noSave : Bool := false
  deriving BEq, DecidableEq, Inhabited

structure HistoryRequest where
  store : Option String := none
  config : Option String := none
  limit : Option Nat := none
  deriving BEq, DecidableEq, Inhabited

structure InitRequest where
  output : String := "bugdetect.yaml"
  deriving BEq, DecidableEq, Inhabited

inductive Request where
  | analyze (r : AnalyzeRequest)
  | history (r : HistoryRequest)
  | init (r : InitRequest)
  deriving BEq, DecidableEq, Inhabited

namespace Reading

def text? (r : Reading) (s : Setting) : Option String :=
  match r.value? s with
  | some (.text t) => some t
  | _ => none

def number? (r : Reading) (s : Setting) : Option Nat :=
  match r.value? s with
  | some (.number n) => some n
  | _ => none

def sector? (r : Reading) : Option Sector :=
  match r.value? .sector with
  | some (.sector s) => some s
  | _ => none

def isOn (r : Reading) (s : Setting) : Bool := (r.value? s).isSome

/-- What the settings of a command ask for. -/
def request (r : Reading) : Except Usage Request :=
  match r.level with
  | .program => .error .noCommand
  | .analyze =>
    match r.text? .file with
    | none => .error .noFile
    | some file =>
      .ok (.analyze {
        file
        sector := r.sector?
        store := r.text? .store
        config := r.text? .config
        format := (r.text? .format).getD "json"
        threshold := r.number? .threshold
        lint := r.isOn .lint
        noSave := r.isOn .noSave })
  | .history =>
    .ok (.history ⟨r.text? .store, r.text? .config, r.number? .limit⟩)
  | .init => .ok (.init ⟨(r.text? .output).getD "bugdetect.yaml"⟩)

end Reading

/-- What a command line asks for. -/
def parse (args : List String) : Except Usage Request :=
  match Reading.readProgram { level := .program } args with
  | .error u => .error u
  | .ok r => r.request

end SourceAudit.CommandLine
