import SourceAudit.Script.Format
import SourceAudit.Script.Shell

/-!
The programs that a script can use, as far as they matter for what it writes: those that print, those
that look at files and those that change them.
-/

namespace SourceAudit.Script

open SourceAudit.Files (Disk Fault)

/-- What a program does with its arguments. -/
abbrev Tool := Shell → List (List Char) → Shell

/-- Writes a line about a mistake under the name of a program, and fails. -/
def Shell.fail (s : Shell) (name : String) (text : List Char) : Shell :=
  (s.write 2 (name.toList ++ ": ".toList ++ text ++ ['\n'])).done 1

/-- Whether an argument is an option. -/
def isOption (arg : List Char) : Bool := arg.length > 1 && arg.head? = some '-'

/-- The options among arguments, and the other ones. After two dashes there are no options. -/
def splitOptions (args : List (List Char)) : List (List Char) × List (List Char) :=
  let front := args.takeWhile (· ≠ "--".toList)
  let (options, others) := front.partition isOption
  (options, others ++ args.drop (front.length + 1))

/-- The letters of short options; none if there is a long one or a letter that is not known. -/
def optionLetters? (known : String) (options : List (List Char)) : Option (List Char) :=
  let letters := options.flatMap List.tail
  if letters.all known.toList.contains then some letters else none

/-- Runs a program that knows the given options on their letters and the other arguments. -/
def withOptions (name known : String)
    (run : Shell → List Char → List (List Char) → Shell) : Tool := fun s args =>
  let (options, rest) := splitOptions args
  match optionLetters? known options with
  | none => s.fail name "unrecognized option".toList
  | some letters => run s letters rest

/-! ### Printing -/

def echoTool (escapes : Bool) : Tool := fun s args => (s.out (echo escapes args)).done 0

def printfTool : Tool := fun s args =>
  match if args.head? = some "--".toList then args.tail else args with
  | [] => s.fail "printf" "usage: printf format [arg ...]".toList
  | format :: rest =>
    let w := printf format rest
    let s := if w.faulty then s.fail "printf" "expected numeric value".toList else s.done 0
    s.out w.out

/-- The content of a file, or of the input if the name is a dash. -/
def contentOf (s : Shell) (path : List Char) : Except Fault (List Char) :=
  if path = ['-'] then .ok s.input
  else
    match s.disk.read (pathOf path) with
    | .error f => .error f
    | .ok content => .ok (octets content.toList)

/-- The system's text for an error, without its number. -/
def faultText (f : Fault) : List Char :=
  f.message.toList.take (f.message.toList.length - (f.message.toList.reverse.takeWhile (· ≠ '(')).length - 2)

/-- Runs a step on the content of each file, or on the input if there are no files. -/
def onFiles (name : String) (s : Shell) (paths : List (List Char))
    (step : Shell → List Char → List Char → Shell) : Shell :=
  match paths with
  | [] => step { s.done 0 with input := [] } [] s.input
  | _ =>
    paths.foldl (fun s path =>
      match contentOf s path with
      | .error f => s.fail name (path ++ ": ".toList ++ faultText f)
      | .ok content => step s path content) (s.done 0)

def catTool : Tool := withOptions "cat" "u" fun s _ paths =>
  onFiles "cat" s paths fun s _ content => s.out content

/-- The lines of a text, each with its line end. -/
def linesOf (cs : List Char) : List (List Char) :=
  (cs.foldr (fun c acc =>
    if c = '\n' then ['\n'] :: acc
    else
      match acc with
      | [] => [[c]]
      | l :: ls => (c :: l) :: ls) [])

/-- The number of lines or bytes that the options of `head` and `tail` name. -/
def readCount? : List (List Char) → Option (Bool × Nat × List (List Char))
  | ['-', 'n'] :: n :: rest => some (false, (integerOf n).1.natAbs, rest)
  | ['-', 'c'] :: n :: rest => some (true, (integerOf n).1.natAbs, rest)
  | ('-' :: 'n' :: n) :: rest => some (false, (integerOf n).1.natAbs, rest)
  | ('-' :: 'c' :: n) :: rest => some (true, (integerOf n).1.natAbs, rest)
  | ('-' :: d :: n) :: rest =>
    if (d :: n).all Char.isDigit then some (false, numberOf 10 (d :: n), rest) else none
  | rest => some (false, 10, rest)

def headTool : Tool := fun s args =>
  match readCount? args with
  | none => s.fail "head" "invalid option".toList
  | some (bytes, n, paths) =>
    onFiles "head" s paths fun s _ content =>
      s.out (if bytes then content.take n else ((linesOf content).take n).flatten)

def tailTool : Tool := fun s args =>
  match readCount? args with
  | none => s.fail "tail" "invalid option".toList
  | some (bytes, n, paths) =>
    onFiles "tail" s paths fun s _ content =>
      let lines := linesOf content
      s.out (if bytes then content.drop (content.length - n)
        else (lines.drop (lines.length - n)).flatten)

/-- Number of words between blanks. -/
def wordCount (cs : List Char) : Nat :=
  (cs.foldl (fun (acc : Nat × Bool) c =>
    let blank := c = ' ' || c = '\t' || c = '\n' || c = '\r' || c = '\x0b' || c = '\x0c'
    (if !blank && !acc.2 then acc.1 + 1 else acc.1, !blank)) (0, false)).1

def wcTool : Tool := withOptions "wc" "lwcm" fun s letters paths =>
  onFiles "wc" s paths fun s path content =>
    let asked (c : Char) : Bool := letters.isEmpty || letters.contains c
    let counts := (if asked 'l' then [content.count '\n'] else [])
      ++ (if asked 'w' then [wordCount content] else [])
      ++ (if asked 'c' || letters.contains 'm' then [content.length] else [])
    let fields := counts.map (Nat.toDigits 10)
    let fields := if fields.length > 1 then fields.map (Layout.pad { width := 7 }) else fields
    s.out (joinBlank (fields ++ (if path.isEmpty then [] else [path])) ++ ['\n'])

def seqTool : Tool := fun s args =>
  let numbers := args.map fun a => (integerOf a).1
  if args.any fun a => !(integerOf a).2 then s.fail "seq" "invalid argument".toList
  else
    let (first, step, last) := match numbers with
      | [last] => (1, 1, last)
      | [first, last] => (first, 1, last)
      | [first, step, last] => (first, step, last)
      | _ => ((1 : Int), (1 : Int), (0 : Int))
    let count := if step = 0 then 0 else ((last - first).fdiv step + 1).toNat
    let lines := (List.range count).map fun (i : Nat) =>
      let n : Int := first + i * step
      (if n < 0 then ['-'] else []) ++ Nat.toDigits 10 n.natAbs ++ ['\n']
    (s.out lines.flatten).done 0

def basenameTool : Tool := fun s args =>
  match args with
  | path :: more =>
    let name := (((pathOf path).toList.reverse.dropWhile (· = '/')).takeWhile (· ≠ '/')).reverse
    let name := octetsOf (String.ofList name)
    let suffix := more.headD []
    let cut := !suffix.isEmpty && suffix.length < name.length && suffix.isSuffixOf name
    if isOption path then s.fail "basename" "unrecognized option".toList
    else (s.out ((if cut then name.take (name.length - suffix.length) else name) ++ ['\n'])).done 0
  | [] => s.fail "basename" "missing operand".toList

def dirnameTool : Tool := fun s args =>
  match args with
  | path :: _ =>
    let dir := ((path.reverse.dropWhile (· = '/')).dropWhile (· ≠ '/')).dropWhile (· = '/')
    let shown := if !dir.isEmpty then dir.reverse else if path.head? = some '/' then ['/'] else ['.']
    if isOption path then s.fail "dirname" "unrecognized option".toList
    else (s.out (shown ++ ['\n'])).done 0
  | [] => s.fail "dirname" "missing operand".toList

def pwdTool : Tool := withOptions "pwd" "LP" fun s _ _ =>
  (s.out ('/' :: octetsOf ("/".intercalate s.disk.workingPlace) ++ ['\n'])).done 0

def teeTool : Tool := withOptions "tee" "ai" fun s letters paths =>
  let text := s.input
  let s := paths.foldl (fun (s : Shell) path =>
    let old := if letters.contains 'a' then (contentOf s path).toOption.getD [] else []
    match s.disk.write (pathOf path) ⟨(toBytes (old ++ text)).toArray⟩ with
    | .error f => s.fail "tee" (path ++ ": ".toList ++ faultText f)
    | .ok disk => { s with disk }) { s.done 0 with input := [] }
  s.out text

def lsTool : Tool := withOptions "ls" "1aA" fun s letters paths =>
  let all := letters.contains 'A' || letters.contains 'a'
  let lines (names : List (List Char)) : List Char := names.flatMap (· ++ ['\n'])
  let namesIn (s : Shell) (dir : List Char) : List (List Char) :=
    (s.namesIn dir).filter fun n => all || n.head? ≠ some '.'
  let (found, missing) := paths.partition fun p => s.disk.has (pathOf p)
  let (dirs, files) := found.partition fun p => s.disk.isDirectory (pathOf p)
  let s := missing.foldl (fun (s : Shell) p =>
    (s.fail "ls" ("cannot access ".toList ++ p ++ ": No such file or directory".toList)).done 2)
    (s.done 0)
  match paths, dirs with
  | [], _ => s.out (lines (namesIn s ['.']))
  | [_], [dir] => s.out (lines (namesIn s dir))
  | _, _ =>
    let s := s.out (lines files)
    dirs.foldl (fun (s : Shell) dir => s.out (dir ++ ":\n".toList ++ lines (namesIn s dir))) s

/-! ### Tests -/

/-- Whether a comparison of two numbers holds; nothing if it is no such comparison. -/
def compares? (op : List Char) (a b : Int) : Option Bool :=
  if op = "-eq".toList then some (a = b)
  else if op = "-ne".toList then some (a ≠ b)
  else if op = "-lt".toList then some (a < b)
  else if op = "-le".toList then some (a ≤ b)
  else if op = "-gt".toList then some (b < a)
  else if op = "-ge".toList then some (b ≤ a)
  else none

/-- A test on one argument; nothing if there is no such test. -/
def testOne? (s : Shell) (op arg : List Char) : Option Bool :=
  let path := pathOf arg
  let mode := (s.disk.mode path).toOption
  if op = "-n".toList then some (!arg.isEmpty)
  else if op = "-z".toList then some arg.isEmpty
  else if op = "-e".toList then some (s.disk.has path)
  else if op = "-f".toList then some (s.disk.isFile path)
  else if op = "-d".toList then some (s.disk.isDirectory path)
  else if op = "-r".toList then some (mode.any (s.disk.grants Files.readBit))
  else if op = "-w".toList then some (mode.any (s.disk.grants Files.writeBit))
  else if op = "-x".toList then some (mode.any fun m => m &&& 0o111 ≠ 0)
  else if op = "-s".toList then some ((s.disk.read path).toOption.any (!·.isEmpty))
  else if op = "-t".toList || op = "-L".toList || op = "-h".toList then some false
  else none

/-- A test on two arguments; nothing if there is no such test. -/
def testTwo? (a op b : List Char) : Option Bool :=
  if op = "=".toList || op = "==".toList then some (a = b)
  else if op = "!=".toList then some (a ≠ b)
  else
    let (m, wholeM) := integerOf a
    let (n, wholeN) := integerOf b
    if wholeM && wholeN then compares? op m n else none

/-- Splits arguments at the last occurrence of an operator that is neither first nor last. -/
def splitLast? (op : List Char) (args : List (List Char)) :
    Option (List (List Char) × List (List Char)) :=
  ((List.range args.length).filter fun i =>
    0 < i && i + 1 < args.length && args[i]? = some op).getLast?.map fun i =>
      (args.take i, args.drop (i + 1))

/-- The outcome of a test; nothing if it is malformed. -/
def testArguments? (s : Shell) : Nat → List (List Char) → Option Bool
  | 0, _ => none
  | fuel + 1, args =>
    match args with
    | [] => some false
    | [a] => some (!a.isEmpty)
    | [a, b] => if a = ['!'] then some b.isEmpty else testOne? s a b
    | [a, op, b] =>
      match testTwo? a op b with
      | some r => some r
      | none =>
        if a = ['!'] then (testArguments? s fuel [op, b]).map (!·)
        else if op = "-a".toList then some (!a.isEmpty && !b.isEmpty)
        else if op = "-o".toList then some (!a.isEmpty || !b.isEmpty)
        else none
    | _ =>
      match splitLast? "-o".toList args with
      | some (l, r) => do return (← testArguments? s fuel l) || (← testArguments? s fuel r)
      | none =>
        match splitLast? "-a".toList args with
        | some (l, r) => do return (← testArguments? s fuel l) && (← testArguments? s fuel r)
        | none =>
          if args.head? = some ['!'] then (testArguments? s fuel args.tail).map (!·) else none

def testTool : Tool := fun s args =>
  match testArguments? s (args.length + 1) args with
  | some true => s.done 0
  | some false => s.done 1
  | none => (s.fail "test" "unexpected operator".toList).done 2

def bracketTool : Tool := fun s args =>
  if args.getLast? = some [']'] then testTool s args.dropLast
  else (s.fail "[" "missing ]".toList).done 2

/-! ### Changing files -/

def touchTool : Tool := withOptions "touch" "acm" fun s _ paths =>
  paths.foldl (fun (s : Shell) path =>
    if s.disk.has (pathOf path) then s
    else
      match s.disk.write (pathOf path) ⟨#[]⟩ with
      | .error f => s.fail "touch" ("cannot touch ".toList ++ path ++ ": ".toList ++ faultText f)
      | .ok disk => { s with disk }) (s.done 0)

def mkdirTool : Tool := withOptions "mkdir" "p" fun s letters paths =>
  paths.foldl (fun (s : Shell) path =>
    let (disk, fault) :=
      if letters.contains 'p' then s.disk.makePath (pathOf path)
      else
        match s.disk.makeDirectory (pathOf path) with
        | .ok disk => (disk, none)
        | .error f => (s.disk, some f)
    let s := { s with disk }
    match fault with
    | none => s
    | some f => s.fail "mkdir" ("cannot create directory ".toList ++ path ++ ": ".toList ++ faultText f))
    (s.done 0)

def rmTool : Tool := withOptions "rm" "rRf" fun s letters paths =>
  paths.foldl (fun (s : Shell) path =>
    let recursive := letters.contains 'r' || letters.contains 'R'
    if s.disk.isDirectory (pathOf path) && !recursive then
      s.fail "rm" ("cannot remove ".toList ++ path ++ ": Is a directory".toList)
    else
      match s.disk.remove (pathOf path) with
      | (disk, none) => { s with disk }
      | (_, some f) =>
        if letters.contains 'f' && f = .notFound then s
        else s.fail "rm" ("cannot remove ".toList ++ path ++ ": ".toList ++ faultText f)) (s.done 0)

/-- The path of a file in a directory, or the path itself if it is no directory. -/
def targetPath (s : Shell) (source target : List Char) : String :=
  if s.disk.isDirectory (pathOf target) then
    Files.Path.within (pathOf target) (String.ofList (Files.Path.lastPart (pathOf source)))
  else pathOf target

/-- Copies a file with its mode. -/
def copyFile (s : Shell) (source target : List Char) : Except Fault Disk :=
  match s.disk.entry (pathOf source) with
  | .error f => .error f
  | .ok (_, .directory _) => .error .isDirectory
  | .ok (_, .file mode content) =>
    let path := targetPath s source target
    let fresh := !s.disk.has path
    match s.disk.write path content with
    | .error f => .error f
    | .ok disk => if fresh then disk.setMode path mode else .ok disk

def cpTool : Tool := withOptions "cp" "fp" fun s _ paths =>
  match paths with
  | [source, target] =>
    match copyFile s source target with
    | .error f => s.fail "cp" (faultText f)
    | .ok disk => { s with disk }.done 0
  | _ => s.fail "cp" "missing operand".toList

def mvTool : Tool := withOptions "mv" "f" fun s _ paths =>
  match paths with
  | [source, target] =>
    match copyFile s source target with
    | .error f => s.fail "mv" (faultText f)
    | .ok disk =>
      let same := Files.Path.same (targetPath s source target) (pathOf source)
      if same then s.fail "mv" "are the same file".toList
      else { s with disk := (disk.remove (pathOf source)).1 }.done 0
  | _ => s.fail "mv" "missing operand".toList

def chmodTool : Tool := fun s args =>
  match args with
  | mode :: paths =>
    paths.foldl (fun (s : Shell) path =>
      let old := (s.disk.mode (pathOf path)).toOption.getD 0
      let new :=
        if mode.all isOctal then numberOf 8 mode
        else if mode = "+x".toList || mode = "a+x".toList then old ||| 0o111
        else if mode = "-x".toList || mode = "a-x".toList then old - (old &&& 0o111)
        else old
      match s.disk.setMode (pathOf path) new with
      | .error f => s.fail "chmod" (faultText f)
      | .ok disk => { s with disk }) (s.done 0)
  | [] => s.fail "chmod" "missing operand".toList

/-! ### Names -/

/-- The programs by name. -/
def tool? (name : String) : Option Tool :=
  match name with
  | "true" | "sleep" | "sync" => some fun s _ => s.done 0
  | "false" => some fun s _ => s.done 1
  | "echo" => some (echoTool false)
  | "printf" => some printfTool
  | "cat" => some catTool
  | "head" => some headTool
  | "tail" => some tailTool
  | "wc" => some wcTool
  | "seq" => some seqTool
  | "basename" => some basenameTool
  | "dirname" => some dirnameTool
  | "pwd" => some pwdTool
  | "tee" => some teeTool
  | "ls" => some lsTool
  | "test" => some testTool
  | "[" => some bracketTool
  | "touch" => some touchTool
  | "mkdir" => some mkdirTool
  | "rm" => some rmTool
  | "cp" => some cpTool
  | "mv" => some mvTool
  | "chmod" => some chmodTool
  | _ => none

/-- Other programs that every machine has. What they would write is not looked at. -/
def otherPrograms : List String :=
  ["arch", "awk", "base64", "chgrp", "chown", "cksum", "cmp", "comm", "csplit", "cut", "date", "dd",
    "df", "diff", "du", "egrep", "expand", "expr", "factor", "fgrep", "find", "fmt", "fold", "grep",
    "groups", "gunzip", "gzip", "hostname", "id", "install", "join", "link", "ln", "login",
    "mawk", "md5sum", "mkfifo", "mktemp", "more", "mount", "nice", "nl", "nohup", "nproc", "od",
    "paste", "pathchk", "perl", "pr", "printenv", "ptx", "readlink", "realpath", "rmdir", "sed",
    "sha1sum", "sha256sum", "sha512sum", "shred", "shuf", "sort", "split", "stat", "stdbuf", "stty",
    "sum", "tac", "tar", "timeout", "tr", "truncate", "tsort", "tty", "umount", "uname", "unexpand",
    "uniq", "unlink", "users", "vdir", "who", "whoami", "xargs", "yes", "zcat"]

/-- Programs that run scripts. -/
def shellNames : List String := ["sh", "dash", "bash"]

/-- Whether a machine has a program of this name. -/
def isProgram (name : String) : Bool :=
  (tool? name).isSome || shellNames.contains name || name = "env" || otherPrograms.contains name

/-- Directories of programs. -/
def programDirectories : List String := ["/bin/", "/usr/bin/"]

/-- The program at a path. -/
def programAt? (path : String) : Option String :=
  programDirectories.findSome? fun dir =>
    if dir.toList.isPrefixOf path.toList then
      let name := String.ofList (path.toList.drop dir.length)
      if isProgram name then some name else none
    else none

end SourceAudit.Script
