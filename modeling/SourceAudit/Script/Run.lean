import SourceAudit.Script.Expand
import SourceAudit.Script.Tool

/-!
Running scripts. Every command changes the state of the shell, its status included, and says how the
script goes on. Fuel bounds the depth of commands, loops and scripts inside each other.
-/

namespace SourceAudit.Script

open SourceAudit.Files (Disk Fault)

/-- How a script goes on after a command. -/
inductive Flow where
  | next
  /-- The script ends. -/
  | stop
  /-- The function ends. -/
  | leave
  /-- That many loops end. -/
  | endLoops (n : Nat)
  /-- That many loops, the last of them excepted, end; it goes on with its next round. -/
  | nextRound (n : Nat)
  deriving BEq, DecidableEq, Inhabited

/-- A failure ends the script if that is asked for and nothing looks at it. -/
def settle (checked : Bool) (s : Shell) (f : Flow) : Shell × Flow :=
  if f = .next && s.status ≠ 0 && s.options.stopOnFailure && !checked then (s, .stop) else (s, f)

/-- What lasts of a script that ran apart: files, output and status. -/
def Shell.keepEffects (s after : Shell) : Shell :=
  { s with
    disk := { after.disk with workingPlace := s.disk.workingPlace }
    buffers := after.buffers
    status := after.status }

/-- Collects what a run writes. -/
def Shell.collect (s : Shell) (run : Shell → Shell) : Shell × List Char :=
  let i := s.buffers.size
  let after := run ({ s with buffers := s.buffers.push [] }.redirectTo 1 (.buffer i))
  let kept := s.keepEffects after
  ({ kept with buffers := after.buffers.extract 0 i }, after.buffers.getD i [])

/-! ### Finding programs -/

/-- Whether anyone may execute a file of this mode. -/
def isExecutable (mode : Nat) : Bool := mode &&& 0o111 ≠ 0

/-- The interpreter in the first line of a script, and the one argument that may follow it. -/
def readFirstLine (line : List Char) : List Char × List (List Char) :=
  let line := (line.dropWhile isBlank).reverse.dropWhile isBlank |>.reverse
  let name := line.takeWhile fun c => !isBlank c
  let argument := (line.drop name.length).dropWhile isBlank
  (name, if argument.isEmpty then [] else [argument])

/-- The program that a path starts, with the arguments it gets. A file has to be executable and to
begin with `#!` and the path of a program; `depth` bounds how many scripts stand behind each other. -/
def programOf (d : Disk) : Nat → String → List (List Char) → Except Fault (String × List (List Char))
  | 0, _, _ => .error .tooManyLinks
  | depth + 1, path, args =>
    match programAt? path with
    | some name => .ok (name, args)
    | none =>
      match d.entry path with
      | .error f => .error f
      | .ok (_, .directory _) => .error .denied
      | .ok (_, .file mode content) =>
        if !isExecutable mode then .error .denied
        else
          match octets content.toList with
          | '#' :: '!' :: cs =>
            let (name, more) := readFirstLine (cs.takeWhile (· ≠ '\n'))
            if name.isEmpty then .error .notExecutable
            else programOf d depth (pathOf name) (more ++ octetsOf path :: args)
          | _ => .error .notExecutable

/-- How many scripts may stand behind each other. -/
def scriptDepth : Nat := 5

/-- The program that a command starts. A command without a slash is the name of a program. -/
def findProgram (d : Disk) (command : String) (args : List (List Char)) :
    Except Fault (String × List (List Char)) :=
  if command.toList.contains '/' then programOf d scriptDepth command args
  else if command = "." || command = ".." then .error .denied
  else if Disk.longestName < command.utf8ByteSize then .error .nameTooLong
  else if isProgram command then .ok (command, args)
  else .error .notFound

/-! ### Commands of the shell itself -/

def setOption (o : Options) (on : Bool) (c : Char) : Options :=
  if c = 'e' then { o with stopOnFailure := on }
  else if c = 'u' then { o with refuseUnset := on }
  else if c = 'x' then { o with trace := on }
  else o

def longOption (name : List Char) : Char :=
  if name = "errexit".toList then 'e'
  else if name = "nounset".toList then 'u'
  else if name = "xtrace".toList then 'x'
  else ' '

/-- Sets options, and the arguments if there are any. -/
def setCommand (s : Shell) : List (List Char) → Shell
  | [] => s
  | arg :: rest =>
    if arg = "--".toList then { s with arguments := rest }
    else
      match arg, rest with
      | ['-', 'o'], name :: rest =>
        setCommand { s with options := setOption s.options true (longOption name) } rest
      | ['+', 'o'], name :: rest =>
        setCommand { s with options := setOption s.options false (longOption name) } rest
      | '-' :: cs, rest =>
        setCommand { s with options := cs.foldl (setOption · true ·) s.options } rest
      | '+' :: cs, rest =>
        setCommand { s with options := cs.foldl (setOption · false ·) s.options } rest
      | _, _ => { s with arguments := arg :: rest }

/-- Sets the variables that arguments name, where they give a value. -/
def assignCommand (s : Shell) (args : List (List Char)) : Shell :=
  args.foldl (fun s arg =>
    let name := arg.takeWhile (· ≠ '=')
    match arg.drop name.length with
    | _ :: value => s.set name value
    | [] => s) (s.done 0)

/-- Gives the fields of a line to variables; the last one gets all that is left. -/
def assignFields (separators : List Char) (s : Shell) (line : List Char) : List (List Char) → Shell
  | [] => s
  | [name] =>
    s.set name (line.reverse.dropWhile separators.contains |>.reverse)
  | name :: names =>
    let field := line.takeWhile fun c => !separators.contains c
    let rest := (line.drop field.length).dropWhile separators.contains
    assignFields separators (s.set name field) rest names

/-- Reads a line of the input into variables. -/
def readLineCommand (s : Shell) (args : List (List Char)) : Shell :=
  let names := args.filter fun a => !isOption a
  let line := s.input.takeWhile (· ≠ '\n')
  let rest := s.input.drop line.length
  let s := { s with input := rest.drop 1 }
  let s := assignFields s.separators s (line.dropWhile s.separators.contains) names
  s.done (if rest.isEmpty then 1 else 0)

def changeDirectory (s : Shell) (args : List (List Char)) : Shell :=
  match s.disk.locate (pathOf (args.headD ['.'])) with
  | .ok (.found place) =>
    if (s.disk.get? place).any Files.Entry.isDirectory then
      { s with disk := { s.disk with workingPlace := place } }.done 0
    else (s.complain "cd: can't cd".toList).done 2
  | _ => (s.complain "cd: can't cd".toList).done 2

/-- The number that an argument gives, or another one. -/
def numberArgument (args : List (List Char)) (usual : Nat) : Nat :=
  match args with
  | [] => usual
  | a :: _ => (integerOf a).1.toNat

/-- Sets what is run when the script ends. -/
def trapCommand (s : Shell) : List (List Char) → Shell
  | action :: signals =>
    if signals.contains "EXIT".toList || signals.contains ['0'] then
      { s with atExit := if action = ['-'] then [] else action }
    else s
  | [] => s

/-- Commands that change nothing that matters here. -/
def idleCommands : List String := [":", "wait", "umask", "ulimit", "hash", "times", "type"]

/-- Commands that the shell carries out itself and that run nothing else. -/
def builtin? (name : String) : Option (Shell → List (List Char) → Shell × Flow) :=
  if idleCommands.contains name then some fun s _ => (s.done 0, .next)
  else
    match name with
    | "echo" => some fun s args => (echoTool s.escapes s args, .next)
    | "exit" => some fun s args => (s.done (numberArgument args s.status % 256), .stop)
    | "return" => some fun s args => (s.done (numberArgument args s.status % 256), .leave)
    | "break" => some fun s args => (s.done 0, .endLoops (numberArgument args 1))
    | "continue" => some fun s args => (s.done 0, .nextRound (numberArgument args 1))
    | "set" => some fun s args => (setCommand (s.done 0) args, .next)
    | "shift" => some fun s args =>
      let n := numberArgument args 1
      if s.arguments.length < n then ((s.complain "shift: can't shift that many".toList).done 2, .stop)
      else ({ s with arguments := s.arguments.drop n }.done 0, .next)
    | "export" | "readonly" | "local" => some fun s args => (assignCommand s args, .next)
    | "unset" => some fun s args =>
      ((args.filter fun a => !isOption a).foldl Shell.unset (s.done 0), .next)
    | "read" => some fun s args => (readLineCommand s args, .next)
    | "cd" => some fun s args => (changeDirectory s args, .next)
    | "trap" => some fun s args => (trapCommand (s.done 0) args, .next)
    | "kill" => some fun s args =>
      if args.contains processNumber then ({ s with atExit := [] }.done 137, .stop) else (s.done 1, .next)
    | _ => none

/-- The options of a program that runs scripts, and its other arguments; nothing if there is an
option that it does not know. `command` says that the script itself is an argument. -/
def readShellOptions? (o : Options) (command : Bool) :
    List (List Char) → Option (Options × Bool × List (List Char))
  | [] => some (o, command, [])
  | arg :: rest =>
    if arg = "--".toList || arg = ['-'] then some (o, command, rest)
    else if !isOption arg then some (o, command, arg :: rest)
    else
      let letters := arg.tail
      if letters.all "abcefhilmnpsuvxC".toList.contains then
        readShellOptions? (letters.foldl (setOption · true ·) o) (command || letters.contains 'c') rest
      else none

/-! ### Running -/

mutual

/-- Runs a command. `checked` says that something looks at its failure. -/
def runCommand : Nat → Bool → Shell → Command → Shell × Flow
  | 0, _, s, _ => (s.done 2, .stop)
  | fuel + 1, checked, s, c =>
    match c with
    | .simple settings words redirects => runSimple fuel checked s settings words redirects
    | .pipeline parts =>
      let (s, f) := runPipeline fuel s parts
      settle checked s f
    | .not c =>
      let (s, f) := runCommand fuel true s c
      (if f = .next then s.done (if s.status = 0 then 1 else 0) else s, f)
    | .and a b =>
      match runCommand fuel true s a with
      | (s, .next) => if s.status = 0 then runCommand fuel checked s b else (s, .next)
      | r => r
    | .or a b =>
      match runCommand fuel true s a with
      | (s, .next) => if s.status = 0 then (s, .next) else runCommand fuel checked s b
      | r => r
    | .sequence cs => runSequence fuel checked s cs
    | .branch condition yes no =>
      match runCommand fuel true s condition with
      | (s, .next) =>
        if s.status = 0 then runCommand fuel checked s yes else runCommand fuel checked (s.done 0) no
      | r => r
    | .loop untilSuccess condition body => runLoop fuel checked s untilSuccess condition body
    | .each name words body =>
      let (s, fields) := match words with
        | none => (s, s.arguments)
        | some ws => expandWords (substitute fuel) s ws
      if s.broken then (s.done 2, .stop) else runEach fuel checked (s.done 0) name body fields
    | .choose word cases =>
      let (s, text) := expandText (substitute fuel) s word
      if s.broken then (s.done 2, .stop) else runCases fuel checked (s.done 0) text cases
    | .apart body =>
      let (after, _) := runCommand fuel checked s body
      settle checked { s.keepEffects after with input := after.input } .next
    | .define name body =>
      ({ s with functions := (name, body) :: s.functions.filter fun f => f.1 ≠ name }.done 0, .next)
    | .redirected body redirects =>
      match openAll fuel s redirects with
      | .error s => settle checked (s.done 2) .next
      | .ok opened =>
        let (after, f) := runCommand fuel checked opened body
        ({ after with streams := s.streams, input := if opened.input = s.input then after.input else s.input }, f)

def runSequence : Nat → Bool → Shell → List Command → Shell × Flow
  | 0, _, s, _ => (s.done 2, .stop)
  | _ + 1, _, s, [] => (s, .next)
  | fuel + 1, checked, s, c :: cs =>
    match runCommand fuel checked s c with
    | (s, .next) => runSequence fuel checked s cs
    | r => r

/-- Runs commands apart, each on what the one before it writes. -/
def runPipeline : Nat → Shell → List Command → Shell × Flow
  | 0, s, _ => (s.done 2, .stop)
  | _ + 1, s, [] => (s, .next)
  | fuel + 1, s, [c] =>
    let (after, _) := runCommand fuel true s c
    (s.keepEffects after, .next)
  | fuel + 1, s, c :: cs =>
    let (after, text) := s.collect fun s => (runCommand fuel true s c).1
    let (after, f) := runPipeline fuel { after with input := text } cs
    ({ after with input := s.input }, f)

def runLoop : Nat → Bool → Shell → Bool → Command → Command → Shell × Flow
  | 0, _, s, _, _, _ => (s.done 2, .stop)
  | fuel + 1, checked, s, untilSuccess, condition, body =>
    let last := s.status
    match runCommand fuel true s condition with
    | (s, .next) =>
      if (s.status = 0) = untilSuccess then (s.done last, .next)
      else
        match runCommand fuel checked s body with
        | (s, .next) | (s, .nextRound 1) => runLoop fuel checked s untilSuccess condition body
        | (s, .nextRound n) => (s, .nextRound (n - 1))
        | (s, .endLoops n) => (s, if n ≤ 1 then .next else .endLoops (n - 1))
        | r => r
    | r => r

def runEach : Nat → Bool → Shell → List Char → Command → List (List Char) → Shell × Flow
  | 0, _, s, _, _, _ => (s.done 2, .stop)
  | _ + 1, _, s, _, _, [] => (s, .next)
  | fuel + 1, checked, s, name, body, field :: fields =>
    match runCommand fuel checked (s.set name field) body with
    | (s, .next) | (s, .nextRound 1) => runEach fuel checked s name body fields
    | (s, .nextRound n) => (s, .nextRound (n - 1))
    | (s, .endLoops n) => (s, if n ≤ 1 then .next else .endLoops (n - 1))
    | r => r

def runCases : Nat → Bool → Shell → List Char → List (List Word × Command) → Shell × Flow
  | 0, _, s, _, _ => (s.done 2, .stop)
  | _ + 1, _, s, _, [] => (s, .next)
  | fuel + 1, checked, s, text, (patterns, body) :: cases =>
    let (s, hit) := patterns.foldl (fun (acc : Shell × Bool) w =>
      if acc.2 then acc
      else
        let (s, p) := expandPattern (substitute fuel) acc.1 w
        (s, patternMatches p text)) (s, false)
    if hit then runCommand fuel checked s body else runCases fuel checked s text cases

/-- Carries out redirections from left to right; the state has the complaint if one fails. -/
def openAll : Nat → Shell → List Redirect → Except Shell Shell
  | 0, s, _ => .error s
  | _ + 1, s, [] => .ok s
  | fuel + 1, s, r :: rs =>
    let (s, target) := expandText (substitute fuel) s r.target
    match s.redirect r target with
    | .error text => .error (s.complain text)
    | .ok s => openAll fuel s rs

/-- Sets variables to the values of words. -/
def assignAll : Nat → Shell → List (List Char × Word) → Shell
  | 0, s, _ => s
  | _ + 1, s, [] => s
  | fuel + 1, s, (name, word) :: rest =>
    let (s, value) := expandText (substitute fuel) s word
    assignAll fuel (s.set name value) rest

/-- Runs a simple command. Settings hold for the command alone if there is one. -/
def runSimple : Nat → Bool → Shell → List (List Char × Word) → List Word → List Redirect → Shell × Flow
  | 0, _, s, _, _, _ => (s.done 2, .stop)
  | fuel + 1, checked, s, settings, words, redirects =>
    let runsScripts := (words ++ settings.map (·.2)).any (·.any fun | .output _ _ => true | _ => false)
    let (s, fields) := expandWords (substitute fuel) s words
    if s.broken then (s.done 2, .stop)
    else
      let before := s
      let s := assignAll fuel s settings
      if s.broken then (s.done 2, .stop)
      else
        match openAll fuel s redirects with
        | .error s => settle checked ({ s with streams := before.streams, input := before.input }.done 2) .next
        | .ok opened =>
          let restore (after : Shell) : Shell :=
            { after with
              streams := before.streams
              input := if redirects.any (·.stream = 0) then before.input else after.input }
          match fields with
          | [] =>
            let after := restore opened
            settle checked (if runsScripts then after else after.done 0) .next
          | name :: args =>
            let traced := if s.options.trace then
                opened.write 2 ("+ ".toList ++ joinBlank (name :: args) ++ ['\n']) else opened
            if name = "exec".toList && args.isEmpty then (traced.done 0, .next)
            else
              let (after, f) := runNamed fuel checked traced name args
              let after := restore after
              let after := settings.foldl (fun (s : Shell) (name, _) =>
                match before.get? name with
                | some old => s.set name old
                | none => { s with bindings := s.bindings.filter fun v => v.1 ≠ name }) after
              settle checked after f

/-- Runs a function, a command of the shell, or a program. -/
def runNamed : Nat → Bool → Shell → List Char → List (List Char) → Shell × Flow
  | 0, _, s, _, _ => (s.done 2, .stop)
  | fuel + 1, checked, s, name, args =>
    match s.functions.find? fun f => f.1 = name with
    | some (_, body) =>
      let (after, f) := runCommand fuel checked { s with arguments := args } body
      ({ after with arguments := s.arguments }, if f = .leave then .next else f)
    | none =>
      match builtin? (String.ofList name) with
      | some run => run s args
      | none =>
        match String.ofList name, args with
        | "eval", args => runText fuel checked s (joinBlank args)
        | ".", path :: _ | "source", path :: _ =>
          match contentOf s path with
          | .error _ => ((s.complain (path ++ ": not found".toList)).done 2, .stop)
          | .ok text =>
            let (s, f) := runText fuel checked s text
            (s, if f = .leave then .next else f)
        | "exec", name :: args => ((runProgram fuel s name args), .stop)
        | "command", name :: args =>
          if name = "-v".toList then
            let known := args.filter fun a =>
              isProgram (String.ofList a) || (builtin? (String.ofList a)).isSome
            let s := s.out (known.flatMap fun a => a ++ ['\n'])
            (s.done (if known.isEmpty then 127 else 0), .next)
          else runNamed fuel checked { s with functions := [] } name args
        | _, _ => (runProgram fuel s name args, .next)

/-- Runs a program and comes back. -/
def runProgram : Nat → Shell → List Char → List (List Char) → Shell
  | 0, s, _, _ => s.done 2
  | fuel + 1, s, name, args =>
    match findProgram s.disk (pathOf name) args with
    | .error .notFound => (s.complain (name ++ ": not found".toList)).done 127
    | .error _ => (s.complain (name ++ ": Permission denied".toList)).done 126
    | .ok (program, args) => startProgram fuel s program args

/-- Starts a program of the machine. -/
def startProgram : Nat → Shell → String → List (List Char) → Shell
  | 0, s, _, _ => s.done 2
  | fuel + 1, s, program, args =>
    if shellNames.contains program then
      match readShellOptions? {} false args with
      | none => (s.write 2 (program.toList ++ ": Illegal option\n".toList)).done 2
      | some (options, true, script :: rest) =>
        startScript fuel s program options (rest.headD program.toList) rest.tail script
      | some (options, false, path :: rest) =>
        match contentOf s path with
        | .error _ => (s.write 2 (program.toList ++ ": 0: cannot open ".toList ++ path ++ ['\n'])).done 2
        | .ok text => startScript fuel s program options path rest text
      | some (options, _, []) => startScript fuel { s with input := [] } program options program.toList [] s.input
    else if program = "env" then
      match args.dropWhile fun a => a.contains '=' && !isOption a with
      | [] => s.done 0
      | name :: args =>
        if name = "-S".toList then
          match (args.headD []).splitBy (fun a b => a ≠ ' ' && b ≠ ' ') |>.filter (· ≠ [' ']) with
          | [] => s.done 0
          | name :: more => runProgram fuel s name (more ++ args.tail)
        else if isOption name then s.fail "env" "unrecognized option".toList |>.done 125
        else runProgram fuel s name args
    else
      match tool? program with
      | some run => run s args
      | none => s.done 0

/-- Starts a script as a program of its own. -/
def startScript : Nat → Shell → String → Options → List Char → List (List Char) → List Char → Shell
  | 0, s, _, _, _, _, _ => s.done 2
  | fuel + 1, s, program, options, name, args, text =>
    let fresh : Shell :=
      { s with
        name, arguments := args, functions := [], options, status := 0, atExit := []
        escapes := program ≠ "bash" }
    let (after, _) := runText fuel false fresh text
    let after := if after.atExit.isEmpty then after
      else (runText fuel false { after with atExit := [] } after.atExit).1.done after.status
    { s.keepEffects after with input := after.input }

/-- Runs the text of a script. -/
def runText : Nat → Bool → Shell → List Char → Shell × Flow
  | 0, _, s, _ => (s.done 2, .stop)
  | fuel + 1, checked, s, text => runTokens fuel checked (s.done 0) (tokens text)

/-- Runs one complete command after the other. -/
def runTokens : Nat → Bool → Shell → List Token → Shell × Flow
  | 0, _, s, _ => (s.done 2, .stop)
  | fuel + 1, checked, s, ts =>
    match readNext ts with
    | .done => (s, .next)
    | .malformed => ((s.complain "Syntax error".toList).done 2, .stop)
    | .command c rest =>
      match runCommand fuel checked s c with
      | (s, .next) => runTokens fuel checked s rest
      | r => r

/-- Runs a script apart and gives what it writes. -/
def substitute : Nat → Substitute
  | 0, s, _ => (s, [])
  | fuel + 1, s, text =>
    s.collect fun s => (runText fuel true s text).1

end

/-- Enough for scripts that end. -/
def runFuel : Nat := 10000

/-- What a program has written. -/
structure Output where
  stdout : List UInt8 := []
  stderr : List UInt8 := []
  deriving BEq, DecidableEq, Inhabited

/-- Starts a command on its arguments: the files after it, and what it has written. -/
def run (d : Disk) (command : String) (args : List String) : Except Fault (Disk × Output) :=
  if (command :: args).any (·.toList.contains '\x00') then .error .nulInCommand
  else
    match findProgram d command (args.map octetsOf) with
    | .error f => .error f
    | .ok (program, args) =>
      let s := startProgram runFuel { disk := d } program args
      .ok ({ s.disk with workingPlace := d.workingPlace },
        ⟨toBytes (s.buffers.getD 0 []), toBytes (s.buffers.getD 1 [])⟩)

end SourceAudit.Script
