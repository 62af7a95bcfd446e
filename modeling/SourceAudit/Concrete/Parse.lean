import SourceAudit.Concrete.Tree
import SourceAudit.Parsing.Run

/-!
From the parser's trees to concrete syntax trees: hidden nodes give way to their children, aliases
replace names, and fields are handed down to the visible nodes that fill them.
-/

namespace SourceAudit.Concrete

open SourceAudit.Grammar SourceAudit.Language SourceAudit.Parsing

mutual

/-- The visible nodes of a tree that fills `field` and appears as `rename` in its parent, in front of
the nodes `after` it. -/
def expose (src : Source) (rename : Option Alias) (field : Option String) (after : List Concrete) :
    Tree → List Concrete
  | .node i cs =>
    let look := match rename with
      | some a => Appearance.mk a.name true a.named
      | none => i.label.appearance
    if look.visible then
      .node
        { kind := look.name, named := look.named, missing := i.missing, error := i.label.isError
          field := field, start := src.point i.start, stop := src.point i.stop }
        (exposeList src i.steps 0 none [] cs.toList) :: after
    else exposeList src i.steps 0 field after cs.toList

/-- The visible nodes of a list of children, the first of which fills step `slot`, in front of the
nodes `after` them. -/
def exposeList (src : Source) (steps : Array Step) (slot : Nat) (outer : Option String)
    (after : List Concrete) : List Tree → List Concrete
  | [] => after
  | .node i cs :: rest =>
    if i.extra then
      expose src none none (exposeList src steps slot outer after rest) (.node i cs)
    else
      let step := steps[slot]?
      expose src (step.bind (·.rename)) ((step.bind (·.field)) <|> outer)
        (exposeList src steps (slot + 1) outer after rest) (.node i cs)

end

/-- The tree of an empty text that could not be parsed at all; the parser never needs it. -/
def failed : Concrete :=
  .node
    { kind := "ERROR", named := true, missing := false, error := true, field := none
      start := ⟨0, 0, 0⟩, stop := ⟨0, 0, 0⟩ } []

/-- The concrete syntax tree of a text. -/
def ofChars (cs : List Char) : Concrete :=
  match parseChars cs with
  | (_, none) => failed
  | (src, some t) => (expose src none none [] t).headD failed

end SourceAudit.Concrete
