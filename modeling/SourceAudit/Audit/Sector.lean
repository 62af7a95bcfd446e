import SourceAudit.Text.LetterCase

/-!
The sector a report is filed under, and how it is guessed from a text.
-/

namespace SourceAudit.Audit

/-- Sector of a report. -/
inductive Sector where
  | education
  | health
  | environment
  /-- No keyword occurs. -/
  | unknown
  deriving BEq, DecidableEq, Inhabited

def Sector.label : Sector → String
  | .education => "education"
  | .health => "health"
  | .environment => "environment"
  | .unknown => "unknown"

/-- The sector with a label. -/
def Sector.ofLabel? : String → Option Sector
  | "education" => some .education
  | "health" => some .health
  | "environment" => some .environment
  | "unknown" => some .unknown
  | _ => none

/-- Keywords by sector; the first sector with a keyword in the text is taken. -/
def sectorKeywords : List (Sector × List String) :=
  [(.education, ["student", "teacher", "school", "classroom", "learning"]),
   (.health, ["patient", "hospital", "doctor", "vaccine", "disease"]),
   (.environment, ["climate", "tree", "pollution", "water", "recycle"])]

/-- Whether a word occurs somewhere in a text. -/
def occurs (word : List Char) : List Char → Bool
  | [] => word.isEmpty
  | c :: cs => word.isPrefixOf (c :: cs) || occurs word cs

/-- Guesses the sector of a text from its keywords. -/
def classify (text : List Char) : Sector :=
  let lowered := Text.lowerCase text
  match sectorKeywords.find? fun (_, words) => words.any fun w => occurs w.toList lowered with
  | some (s, _) => s
  | none => .unknown

end SourceAudit.Audit
