import AuditTrail.Number.Numeral

/-!
# Timestamps of issued entries

Entry number `n` of an issued log is dated `n` seconds after the start of the year 2026.
-/

namespace AuditTrail.Timestamp

/-- A day of the Gregorian calendar. -/
structure Date where
  year : Nat
  month : Nat
  day : Nat
  deriving DecidableEq, Repr

/-- The date a number of days after the start of 1970. Years are counted from March, so that the day
which leap years add is the last of its year; four hundred years have 146097 days. -/
def Date.ofDays (days : Nat) : Date :=
  let shifted := days + 719468
  let era := shifted / 146097
  let dayOfEra := shifted % 146097
  let yearOfEra := (dayOfEra - dayOfEra / 1460 + dayOfEra / 36524 - dayOfEra / 146096) / 365
  let dayOfYear := dayOfEra - (365 * yearOfEra + yearOfEra / 4 - yearOfEra / 100)
  let fromMarch := (5 * dayOfYear + 2) / 153
  let day := dayOfYear - (153 * fromMarch + 2) / 5 + 1
  let month := if fromMarch < 10 then fromMarch + 3 else fromMarch - 9
  let year := yearOfEra + era * 400 + if month ≤ 2 then 1 else 0
  ⟨year, month, day⟩

/-- The decimal text of a number, with zeros in front up to a number of digits. -/
def padded (width n : Nat) : String :=
  let digits := Number.naturalChars n
  String.ofList (List.replicate (width - digits.length) '0' ++ digits)

/-- The text of a year: four digits, or a plus sign and more. -/
def yearText (year : Nat) : String :=
  if year ≤ 9999 then padded 4 year else "+" ++ padded 5 year

/-- The text of a moment, given in seconds after the start of 1970. -/
def ofSeconds (seconds : Nat) : String :=
  let date := Date.ofDays (seconds / 86400)
  let time := seconds % 86400
  yearText date.year ++ "-" ++ padded 2 date.month ++ "-" ++ padded 2 date.day ++ "T"
    ++ padded 2 (time / 3600) ++ ":" ++ padded 2 (time / 60 % 60) ++ ":" ++ padded 2 (time % 60)
    ++ ".000Z"

/-- The start of the year 2026, in seconds after the start of 1970. -/
def firstSecond : Nat := 1767225600

/-- The timestamp of entry number `index`. -/
def ofIndex (index : Nat) : String := ofSeconds (firstSecond + index)

end AuditTrail.Timestamp
