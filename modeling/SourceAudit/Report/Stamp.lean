/-!
Times in reports: date and time of day in universal time, to the second.
-/

namespace SourceAudit.Report

/-- A day of the calendar. -/
structure Date where
  year : Nat
  month : Nat
  day : Nat
  deriving BEq, DecidableEq, Inhabited

/-- The day that comes `days` after the first of January 1970. Years are counted from March on, so
that the day that not every year has is the last one; 400 years have 146097 days. -/
def Date.ofDays (days : Nat) : Date :=
  let z := days + 719468
  let era := z / 146097
  let dayOfEra := z % 146097
  let yearOfEra :=
    (dayOfEra - dayOfEra / 1460 + dayOfEra / 36524 - dayOfEra / 146096) / 365
  let dayOfYear := dayOfEra - (365 * yearOfEra + yearOfEra / 4 - yearOfEra / 100)
  let m := (5 * dayOfYear + 2) / 153
  let month := if m < 10 then m + 3 else m - 9
  { year := yearOfEra + era * 400 + (if month ≤ 2 then 1 else 0)
    month := month
    day := dayOfYear - (153 * m + 2) / 5 + 1 }

/-- A number with at least `width` digits. -/
def padded (width n : Nat) : String :=
  let ds := Nat.toDigits 10 n
  String.ofList (List.replicate (width - ds.length) '0' ++ ds)

/-- The time that comes `seconds` after the beginning of 1970. -/
def timeStamp (seconds : Nat) : String :=
  let date := Date.ofDays (seconds / 86400)
  let rest := seconds % 86400
  padded 4 date.year ++ "-" ++ padded 2 date.month ++ "-" ++ padded 2 date.day ++ "T"
    ++ padded 2 (rest / 3600) ++ ":" ++ padded 2 (rest / 60 % 60) ++ ":" ++ padded 2 (rest % 60) ++ "Z"

end SourceAudit.Report
