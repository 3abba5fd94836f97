/-
  SearchGateway.Gateway.Timestamp

  Points in time, counted in milliseconds from the start of 1970, and their written
  form in the calendar.
-/

namespace SearchGateway.Gateway

/-- A point in time. -/
structure Timestamp where
  millis : Nat
  deriving DecidableEq, Repr

namespace Timestamp

/-- Year, month and day of a number of days from the start of 1970.  Years are counted from March, so
    that a leap day ends a year. -/
def civil (days : Nat) : Nat × Nat × Nat :=
  let shifted := days + 719468
  let era := shifted / 146097
  let dayOfEra := shifted % 146097
  let yearOfEra := (dayOfEra - dayOfEra / 1460 + dayOfEra / 36524 - dayOfEra / 146096) / 365
  let dayOfYear := dayOfEra - (365 * yearOfEra + yearOfEra / 4 - yearOfEra / 100)
  let marchMonth := (5 * dayOfYear + 2) / 153
  let day := dayOfYear - (153 * marchMonth + 2) / 5 + 1
  let month := if marchMonth < 10 then marchMonth + 3 else marchMonth - 9
  let year := yearOfEra + era * 400 + (if month ≤ 2 then 1 else 0)
  (year, month, day)

/-- The decimal digits of a number, with zeros in front up to a width. -/
def padded (width n : Nat) : String :=
  let digits := Nat.toDigits 10 n
  String.ofList (List.replicate (width - digits.length) '0' ++ digits)

/-- The written form of a point in time, with milliseconds. -/
def text (t : Timestamp) : String :=
  let (year, month, day) := civil (t.millis / 86400000)
  let ofDay := t.millis % 86400000
  padded 4 year ++ "-" ++ padded 2 month ++ "-" ++ padded 2 day ++ "T" ++
    padded 2 (ofDay / 3600000) ++ ":" ++ padded 2 (ofDay / 60000 % 60) ++ ":" ++
    padded 2 (ofDay / 1000 % 60) ++ "." ++ padded 3 (ofDay % 1000) ++ "Z"

end Timestamp

end SearchGateway.Gateway
