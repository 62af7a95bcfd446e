import SourceAudit.Grammar.Rule

/-!
From rules to productions: repetitions become auxiliary variables, choices are multiplied out,
default aliases are separated, and inlined variables are replaced by their alternatives.
-/

namespace SourceAudit.Grammar

inductive Symbol where
  | terminal (index : Nat)
  | variable (index : Nat)
  deriving BEq, DecidableEq, Hashable, Inhabited

deriving instance Hashable for Assoc, Alias

/-- One symbol on the right of a production with the marks that reach it. -/
structure Step where
  symbol : Symbol
  prec : Option Int
  assoc : Option Assoc
  rename : Option Alias
  field : Option String
  deriving BEq, Hashable, Inhabited

structure Production where
  /-- Index of the variable on the left. -/
  lhs : Nat
  steps : Array Step
  dynamic : Int
  deriving BEq, Inhabited

/-! ### Repetitions -/

/-- The auxiliary variables made so far, with the repeated rule that each stands for. -/
structure Repeats where
  known : List (Rule × String) := []
  made : Array Definition := #[]

/-- The auxiliary variable for one or more `body`; equal bodies share one variable. -/
def Repeats.variableFor (owner : String) (body : Rule) (rs : Repeats) : Rule × Repeats :=
  match rs.known.find? (·.1 == body) with
  | some (_, name) => (.ref name, rs)
  | none =>
    let name := owner ++ "#" ++ toString rs.made.size
    let alternatives := Rule.flattenChoice [.seq [.ref name, .ref name], body]
    (.ref name,
      { known := (body, name) :: rs.known, made := rs.made.push ⟨name, .choice alternatives⟩ })

mutual

/-- Replaces every repetition in a rule of `owner` by its auxiliary variable. -/
def expandRepeats (owner : String) : Rule → Repeats → Rule × Repeats
  | .seq ms, rs => let (ms, rs) := expandRepeatsList owner ms rs; (.seq ms, rs)
  | .choice ms, rs => let (ms, rs) := expandRepeatsList owner ms rs; (.choice ms, rs)
  | .mark m r, rs => let (r, rs) := expandRepeats owner r rs; (.mark m r, rs)
  | .repeat1 r, rs => let (r, rs) := expandRepeats owner r rs; rs.variableFor owner r
  | .blank, rs => (.blank, rs)
  | .token t, rs => (.token t, rs)
  | .ref n, rs => (.ref n, rs)

def expandRepeatsList (owner : String) : List Rule → Repeats → List Rule × Repeats
  | [], rs => ([], rs)
  | r :: ms, rs =>
    let (r, rs) := expandRepeats owner r rs
    let (ms, rs) := expandRepeatsList owner ms rs
    (r :: ms, rs)

end

/-- The definitions without repetitions, the auxiliary variables at the end. -/
def withoutRepeats (defs : List Definition) : List Definition :=
  let (out, rs) := defs.foldl (fun (out, rs) d =>
    let (body, rs) := expandRepeats d.name d.body rs
    (out.push { d with body := body }, rs)) ((#[] : Array Definition), ({} : Repeats))
  (out ++ rs.made).toList

/-! ### Choices -/

mutual

/-- The choice-free rules that a rule stands for, in order. -/
def alternatives : Rule → List Rule
  | .seq ms => seqAlternatives ms [.blank]
  | .choice ms => choiceAlternatives ms
  | .mark m r => (alternatives r).map (.mark m)
  | .blank => [.blank]
  | .token t => [.token t]
  | .ref n => [.ref n]
  | .repeat1 r => [.repeat1 r]

def choiceAlternatives : List Rule → List Rule
  | [] => []
  | r :: ms => alternatives r ++ choiceAlternatives ms

def seqAlternatives : List Rule → List Rule → List Rule
  | [], done => done
  | r :: ms, done =>
    let next := alternatives r
    seqAlternatives ms (done.flatMap fun front => next.map fun back => .seq [front, back])

end

/-! ### Steps -/

/-- The marks in force at some point of a rule. -/
structure Marks where
  prec : Option Int := none
  assoc : Option Assoc := none
  rename : Option Alias := none
  field : Option String := none

/-- A production under construction. -/
structure Draft where
  steps : Array Step := #[]
  dynamic : Int := 0

/-- Of two dynamic precedences the one further from zero, the first on a tie. -/
def strongerDynamic (a b : Int) : Int := if b.natAbs > a.natAbs then b else a

def Draft.modifyLast (d : Draft) (f : Step → Step) : Draft :=
  { d with steps := d.steps.modify (d.steps.size - 1) f }

mutual

/-- Appends the steps of a choice-free rule. A precedence or associativity that ends before the
production does is taken back from its last step, which already belongs to what follows. -/
def appendSteps (resolve : Rule → Symbol) (marks : Marks) (atEnd : Bool) : Rule → Draft → Draft
  | .seq ms, d => appendStepsList resolve marks atEnd ms d
  | .mark (.prec level) r, d =>
    let d' := appendSteps resolve { marks with prec := some level } atEnd r d
    if d'.steps.size > d.steps.size && !atEnd then
      d'.modifyLast ({ · with prec := marks.prec })
    else d'
  | .mark (.assoc side) r, d =>
    let d' := appendSteps resolve { marks with assoc := some side } atEnd r d
    if d'.steps.size > d.steps.size && !atEnd then
      d'.modifyLast ({ · with assoc := marks.assoc })
    else d'
  | .mark (.rename a) r, d => appendSteps resolve { marks with rename := some a } atEnd r d
  | .mark (.field n) r, d => appendSteps resolve { marks with field := some n } atEnd r d
  | .mark (.dynamic level) r, d =>
    appendSteps resolve marks atEnd r { d with dynamic := strongerDynamic d.dynamic level }
  | .blank, d => d
  | .token t, d => push (.token t) d
  | .ref n, d => push (.ref n) d
  | .choice _, d => d
  | .repeat1 _, d => d
where
  push (r : Rule) (d : Draft) : Draft :=
    { d with steps := d.steps.push ⟨resolve r, marks.prec, marks.assoc, marks.rename, marks.field⟩ }

def appendStepsList (resolve : Rule → Symbol) (marks : Marks) (atEnd : Bool) :
    List Rule → Draft → Draft
  | [], d => d
  | [r], d => appendSteps resolve marks atEnd r d
  | r :: ms, d =>
    appendStepsList resolve marks atEnd ms (appendSteps resolve marks false r d)

end

/-- The distinct productions of variable `lhs` with the given rule. -/
def productionsOf (resolve : Rule → Symbol) (lhs : Nat) (body : Rule) : List Production :=
  ((alternatives body).map fun r =>
    let d := appendSteps resolve {} true r {}
    { lhs := lhs, steps := d.steps, dynamic := d.dynamic }).eraseDups

/-! ### Default aliases -/

/-- The alias of a symbol that never stands unaliased: its most frequent one, the first on a tie. -/
def defaultAlias? (productions : Array Production) (s : Symbol) : Option Alias :=
  let uses := productions.flatMap fun p => p.steps.filterMap fun st =>
    if st.symbol == s then some st.rename else none
  if uses.any (·.isNone) then none
  else
    let names := (uses.filterMap id).toList
    names.eraseDups.foldl (fun best a =>
      match best with
      | none => some a
      | some b => if names.count a > names.count b then some a else some b) none

/-! ### Inlining -/

/-- Replaces step `i` of `p` by the right side of `q`, which inherits alias, field and, on its
last step, precedence and associativity. -/
def Production.inlineAt (p : Production) (i : Nat) (q : Production) : Production :=
  match p.steps[i]? with
  | none => p
  | some old =>
    let inherit := q.steps.mapIdx fun k st =>
      let st := { st with rename := old.rename <|> st.rename, field := old.field <|> st.field }
      if k + 1 == q.steps.size then
        { st with prec := st.prec <|> old.prec, assoc := st.assoc <|> old.assoc }
      else st
    { p with
      steps := p.steps.extract 0 i ++ inherit ++ p.steps.extract (i + 1) p.steps.size
      dynamic := strongerDynamic p.dynamic q.dynamic }

/-- The productions that result from replacing inlined variables, at most `depth` of them in each. -/
def Production.inlined (alternativesOf : Symbol → Option (List Production)) :
    Nat → Production → List Production
  | 0, p => [p]
  | depth + 1, p =>
    match p.steps.findIdx? fun st => (alternativesOf st.symbol).isSome with
    | none => [p]
    | some i =>
      match (p.steps[i]?).bind fun st => alternativesOf st.symbol with
      | none => [p]
      | some qs => qs.flatMap fun q => (p.inlineAt i q).inlined alternativesOf depth

end SourceAudit.Grammar
