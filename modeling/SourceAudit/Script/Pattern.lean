import SourceAudit.Script.Shell

/-!
Patterns: a star matches any text, a question mark any character, and brackets one of those that they
list. A character that is protected matches only itself.
-/

namespace SourceAudit.Script

/-- A character of a pattern, and whether it is protected. -/
abbrev PatternChar := Char × Bool

/-- Whether a character is among those listed. -/
def inList (c : Char) : List Char → Bool
  | [] => false
  | a :: '-' :: b :: rest => (a ≤ c && c ≤ b) || inList c rest
  | a :: rest => a = c || inList c rest

/-- The list in brackets at the front of a pattern, and the rest after it. A bracket that stands first
in the list is part of it. -/
def readBracket? (p : List PatternChar) : Option (List Char × List PatternChar) :=
  let first := p.takeWhile fun x => x = ('!', false) || x = ('^', false)
  let start := (first.take 1) ++ ((p.drop (min 1 first.length)).take 1)
  let more := (p.drop start.length).takeWhile fun x => x.1 ≠ ']'
  match p.drop (start.length + more.length) with
  | [] => none
  | _ :: rest => some ((start ++ more).map (·.1), rest)

theorem readBracket?_length {p rest : List PatternChar} {cs : List Char}
    (h : readBracket? p = some (cs, rest)) : rest.length < p.length := by
  unfold readBracket? at h
  simp only at h
  split at h
  · simp at h
  · next a tail heq =>
    have hrest : rest = tail := by
      simp only [Option.some.injEq, Prod.mk.injEq] at h
      exact h.2.symm
    have hlen := congrArg List.length heq
    rw [List.length_drop, List.length_cons] at hlen
    rw [hrest]
    omega

/-- Whether a listed class of characters holds a character; a mark in front turns it round. -/
def bracketMatches (cs : List Char) (c : Char) : Bool :=
  match cs with
  | '!' :: rest | '^' :: rest => !inList c rest
  | _ => inList c cs

/-- Whether a pattern matches all of a text. -/
def patternMatches (p : List PatternChar) (text : List Char) : Bool :=
  match p, text with
  | [], text => text.isEmpty
  | ('*', false) :: p, [] => patternMatches p []
  | ('*', false) :: p, c :: text =>
    patternMatches p (c :: text) || patternMatches (('*', false) :: p) text
  | _ :: _, [] => false
  | ('?', false) :: p, _ :: text => patternMatches p text
  | ('[', false) :: p, c :: text =>
    match h : readBracket? p with
    | none => c = '[' && patternMatches p text
    | some (cs, rest) =>
      have := readBracket?_length h
      bracketMatches cs c && patternMatches rest text
  | (x, _) :: p, c :: text => x = c && patternMatches p text
termination_by p.length + text.length

/-- Removes the shortest or the longest start that a pattern matches. -/
def removeStart (p : List PatternChar) (longest : Bool) (text : List Char) : List Char :=
  let cuts := (List.range (text.length + 1)).filter fun n => patternMatches p (text.take n)
  match if longest then cuts.getLast? else cuts.head? with
  | none => text
  | some n => text.drop n

/-- Removes the shortest or the longest end that a pattern matches. -/
def removeEnd (p : List PatternChar) (longest : Bool) (text : List Char) : List Char :=
  let cuts := (List.range (text.length + 1)).filter fun n => patternMatches p (text.drop n)
  match if longest then cuts.head? else cuts.getLast? with
  | none => text
  | some n => text.take n

/-- Whether a text is more than itself as a pattern. -/
def isPattern (p : List PatternChar) : Bool :=
  p.any fun x => x = ('*', false) || x = ('?', false) || x = ('[', false)

/-- The names in a directory that a pattern matches, in order. A dot at the start is matched only by a
dot. -/
def namesMatching (s : Shell) (dir : List Char) (p : List PatternChar) : List (List Char) :=
  let hidden := (p.head?.map (·.1)) = some '.'
  (s.namesIn (if dir.isEmpty then ['.'] else dir)).filter fun n =>
    patternMatches p n && (hidden || n.head? ≠ some '.')

/-- The paths that a field stands for: those its last part matches, or the field itself. -/
def pathsMatching (s : Shell) (field : List PatternChar) : List (List Char) :=
  let last := (field.reverse.takeWhile fun x => x.1 ≠ '/').reverse
  let dir := (field.take (field.length - last.length)).map (·.1)
  let literal := field.map (·.1)
  if !isPattern last then [literal]
  else
    match namesMatching s dir last with
    | [] => [literal]
    | names => names.map (dir ++ ·)

end SourceAudit.Script
