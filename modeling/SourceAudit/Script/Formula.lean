import SourceAudit.Script.Format
import SourceAudit.Script.Shell

/-!
Formulas over integers, with names that stand for the values of variables.
-/

namespace SourceAudit.Script

/-- The operators between two numbers, weakest first. -/
def formulaLevels : List (List String) :=
  [["||"], ["&&"], ["|"], ["^"], ["&"], ["==", "!="], ["<=", ">=", "<", ">"], ["<<", ">>"],
    ["+", "-"], ["*", "/", "%"]]

/-- All operators, longest first. -/
def formulaOperators : List String :=
  ["||", "&&", "==", "!=", "<=", ">=", "<<", ">>", "|", "^", "&", "<", ">", "+", "-", "*", "/", "%"]

def truth (b : Bool) : Int := if b then 1 else 0

/-- The value of an operator; nothing for a division by zero. -/
def applyOperator? (op : String) (a b : Int) : Option Int :=
  match op with
  | "||" => some (truth (a ≠ 0 || b ≠ 0))
  | "&&" => some (truth (a ≠ 0 && b ≠ 0))
  | "|" => some (a.toNat ||| b.toNat : Nat)
  | "^" => some (a.toNat ^^^ b.toNat : Nat)
  | "&" => some (a.toNat &&& b.toNat : Nat)
  | "==" => some (truth (a = b))
  | "!=" => some (truth (a ≠ b))
  | "<=" => some (truth (a ≤ b))
  | ">=" => some (truth (b ≤ a))
  | "<" => some (truth (a < b))
  | ">" => some (truth (b < a))
  | "<<" => some (a * (1 <<< b.toNat : Nat))
  | ">>" => some (a.fdiv (1 <<< b.toNat : Nat))
  | "+" => some (a + b)
  | "-" => some (a - b)
  | "*" => some (a * b)
  | "/" => if b = 0 then none else some (a.tdiv b)
  | "%" => if b = 0 then none else some (a.tmod b)
  | _ => none

def skipSpace (cs : List Char) : List Char := cs.dropWhile fun c => c = ' ' || c = '\t' || c = '\n'

mutual

/-- Reads a formula that may choose between two others. -/
def readChoiceFormula (s : Shell) : Nat → List Char → Option (Int × List Char)
  | 0, _ => none
  | fuel + 1, cs => do
    let (a, rest) ← readFormula s fuel formulaLevels cs
    match skipSpace rest with
    | '?' :: rest =>
      let (b, rest) ← readChoiceFormula s fuel rest
      match skipSpace rest with
      | ':' :: rest =>
        let (c, rest) ← readChoiceFormula s fuel rest
        return (if a = 0 then c else b, rest)
      | _ => none
    | _ => return (a, rest)

/-- Reads a formula of operators from the given level on. -/
def readFormula (s : Shell) : Nat → List (List String) → List Char → Option (Int × List Char)
  | 0, _, _ => none
  | fuel + 1, [], cs => readOperand s fuel cs
  | fuel + 1, level :: levels, cs =>
    match readFormula s fuel levels cs with
    | none => none
    | some (a, rest) => readFormulaRest s fuel level levels a rest

def readFormulaRest (s : Shell) :
    Nat → List String → List (List String) → Int → List Char → Option (Int × List Char)
  | 0, _, _, _, _ => none
  | fuel + 1, level, levels, a, cs =>
    let cs := skipSpace cs
    match formulaOperators.find? fun o => o.toList.isPrefixOf cs with
    | none => some (a, cs)
    | some op =>
      if !level.contains op then some (a, cs)
      else
        match readFormula s fuel levels (cs.drop op.length) with
        | none => none
        | some (b, rest) =>
          match applyOperator? op a b with
          | none => none
          | some c => readFormulaRest s fuel level levels c rest

/-- Reads a number, a name, or a formula in brackets. -/
def readOperand (s : Shell) : Nat → List Char → Option (Int × List Char)
  | 0, _ => none
  | fuel + 1, cs =>
    match skipSpace cs with
    | '(' :: cs =>
      match readChoiceFormula s fuel cs with
      | none => none
      | some (a, rest) =>
        match skipSpace rest with
        | ')' :: rest => some (a, rest)
        | _ => none
    | '-' :: cs => (readOperand s fuel cs).map fun (a, rest) => (-a, rest)
    | '+' :: cs => readOperand s fuel cs
    | '!' :: cs => (readOperand s fuel cs).map fun (a, rest) => (truth (a = 0), rest)
    | '~' :: cs => (readOperand s fuel cs).map fun (a, rest) => (-a - 1, rest)
    | c :: cs =>
      let word := (c :: cs).takeWhile isNamePart
      if c.isDigit then some ((integerOf word).1, (c :: cs).drop word.length)
      else if isNameStart c then
        some ((integerOf ((s.get? word).getD [])).1, (c :: cs).drop word.length)
      else none
    | [] => none

end

/-- The value of a formula; an empty one is zero. -/
def formulaValue? (s : Shell) (cs : List Char) : Option Int :=
  if (skipSpace cs).isEmpty then some 0
  else
    match readChoiceFormula s (20 * cs.length + 20) cs with
    | some (a, rest) => if (skipSpace rest).isEmpty then some a else none
    | none => none

/-- An integer in decimal. -/
def intText (n : Int) : List Char :=
  if n < 0 then '-' :: Nat.toDigits 10 n.natAbs else Nat.toDigits 10 n.natAbs

end SourceAudit.Script
