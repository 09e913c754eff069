import IndexingPipeline.Clock
import IndexingPipeline.Run.Basic
import IndexingPipeline.Text.Quoted

/-!
# Layout

How moments, outcomes and columns look in what the program prints. Columns are filled up to a
number of characters. Moments are told relative to now while they are near, and as dates, on the
Gregorian calendar, once a day has passed.
-/

namespace IndexingPipeline.Layout

def blanks (n : Nat) : String := String.ofList (List.replicate n ' ')

def left (width : Nat) (s : String) : String := s ++ blanks (width - s.length)

def right (width : Nat) (s : String) : String := blanks (width - s.length) ++ s

def rule (width : Nat) : String := String.ofList (List.replicate width '-')

def padded (width n : Nat) : String :=
  let digits := toString n
  String.ofList (List.replicate (width - digits.length) '0') ++ digits

/-- Year, month and day of a number of days since the epoch. Years start in March here, so that
a leap day is the last of its year. -/
def dateOf (days : Int) : Int × Nat × Nat :=
  let shifted := days + 719468
  let era := shifted / 146097
  let inEra := (shifted % 146097).toNat
  let year := (inEra - inEra / 1460 + inEra / 36524 - inEra / 146096) / 365
  let inYear := inEra - (365 * year + year / 4 - year / 100)
  let march := (5 * inYear + 2) / 153
  let day := inYear - (153 * march + 2) / 5 + 1
  let month := if march < 10 then march + 3 else march - 9
  ((year : Int) + era * 400 + (if month ≤ 2 then 1 else 0), month, day)

/-- Years of more or less than four digits have a sign. -/
def yearText (year : Int) : String :=
  if year < 0 then "-" ++ padded 4 year.natAbs
  else if 9999 < year then "+" ++ padded 4 year.natAbs
  else padded 4 year.natAbs

/-- A moment as date and time; as a plain number when it is too far away for a date. -/
def dateText (moment : Int) : String :=
  let days := moment / 86400000
  let minutes := (moment % 86400000 / 60000).toNat
  let (year, month, day) := dateOf days
  if year < -262143 ∨ 262142 < year then toString moment
  else
    yearText year ++ "-" ++ padded 2 month ++ "-" ++ padded 2 day ++ " " ++
      padded 2 (minutes / 60) ++ ":" ++ padded 2 (minutes % 60)

def agoText (n : Nat) (unit : String) : String :=
  toString n ++ " " ++ unit ++ (if n = 1 then "" else "s") ++ " ago"

def relative (now moment : Int) : String :=
  let seconds := (wrap64 (now - moment)).tdiv 1000
  if seconds < 0 then
    let ahead := seconds.natAbs
    if ahead < 60 then "in " ++ toString ahead ++ "s"
    else "in " ++ toString (ahead / 60) ++ " min"
  else
    let passed := seconds.toNat
    if passed < 60 then "just now"
    else if passed < 3600 then agoText (passed / 60) "min"
    else if passed < 86400 then agoText (passed / 3600) "hour"
    else dateText moment

def optional (f : α → String) : Option α → String
  | none => "None"
  | some a => "Some(" ++ f a ++ ")"

def fields (parts : List (String × String)) : String :=
  "\x7b " ++ ", ".intercalate (parts.map fun (name, text) => name ++ ": " ++ text) ++ " \x7d"

def outcome : Outcome → String
  | .completed revision previous chunks cleaned =>
    "Completed " ++ fields [
      ("revision_id", Text.quoted revision),
      ("previous_revision_id", optional Text.quoted previous),
      ("chunk_count", toString chunks),
      ("cleaned", optional toString cleaned)]
  | .lockBusy retryAt => "LockBusy " ++ fields [("retry_at", toString retryAt)]
  | .paused retryAt => "Paused " ++ fields [("retry_at", toString retryAt)]
  | .retrying attempts retryAt =>
    "Retrying " ++ fields [("attempts", toString attempts), ("retry_at", toString retryAt)]
  | .failed reason => "Failed " ++ fields [("error", Text.quoted reason)]

end IndexingPipeline.Layout
