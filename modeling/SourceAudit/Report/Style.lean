/-!
Texts with terminal styles. The same text is shown with style sequences or without.
-/

namespace SourceAudit.Report

/-- A style of the terminal. -/
inductive Style where
  | plain
  | bold
  | dim
  | red
  | green
  | yellow
  | blue
  | boldRed
  | boldGreen
  | boldCyan
  deriving BEq, DecidableEq, Inhabited

/-- The parameters of the style's sequence. -/
def Style.code : Style → String
  | .plain => ""
  | .bold => "1"
  | .dim => "2"
  | .red => "31"
  | .green => "32"
  | .yellow => "33"
  | .blue => "34"
  | .boldRed => "1;31"
  | .boldGreen => "1;32"
  | .boldCyan => "1;36"

/-- The sequence that turns a style on. -/
def Style.start (s : Style) : List Char := '\x1b' :: '[' :: (s.code.toList ++ ['m'])

/-- The sequence that turns all styles off. -/
def resetSequence : List Char := ['\x1b', '[', '0', 'm']

/-- The text with the style turned on again after each sequence in it that turns styles off. -/
def restyle (s : Style) : List Char → List Char
  | '\x1b' :: '[' :: '0' :: 'm' :: cs => resetSequence ++ (s.start ++ restyle s cs)
  | c :: cs => c :: restyle s cs
  | [] => []

/-- The text with blanks up to the given number of characters. -/
def padTo (width : Nat) (cs : List Char) : List Char :=
  cs ++ List.replicate (width - cs.length) ' '

/-- A part of an output: a text in one style, filled up to a width. -/
structure Span where
  style : Style
  text : List Char
  width : Nat := 0
  deriving BEq, DecidableEq, Inhabited

/-- A text without a style. -/
def text (s : String) : Span := ⟨.plain, s.toList, 0⟩

/-- A text in a style. -/
def styled (style : Style) (s : String) : Span := ⟨style, s.toList, 0⟩

/-- A text in a style, filled up with blanks. -/
def column (style : Style) (width : Nat) (s : String) : Span := ⟨style, s.toList, width⟩

/-- The characters of a part. -/
def Span.render (colour : Bool) (p : Span) : List Char :=
  if colour && p.style ≠ .plain then
    p.style.start ++ (padTo p.width (restyle p.style p.text) ++ resetSequence)
  else padTo p.width p.text

/-- The text of an output, with style sequences if `colour` is set. -/
def showSpans (colour : Bool) (parts : List Span) : String :=
  String.ofList (parts.flatMap (Span.render colour))

end SourceAudit.Report
