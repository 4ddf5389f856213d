/-
The text of a time: a date, a time of day and the offset of the zone.

The date is counted in years that begin in March, so that a leap day is the last of its year.
-/

import Scriptorium.Text.CodePoint

namespace Scriptorium.Catalog

/-! ### Dates -/

/-- A day in the calendar. -/
structure Date where
  year : Nat
  month : Nat
  day : Nat
deriving DecidableEq, Repr

/-- The day that is a number of days after the first of January 1970. -/
def Date.ofDays (days : Nat) : Date :=
  let n := days + 719468
  let era := n / 146097
  let dayOfEra := n % 146097
  let yearOfEra := (dayOfEra - dayOfEra / 1460 + dayOfEra / 36524 - dayOfEra / 146096) / 365
  let dayOfYear := dayOfEra - (365 * yearOfEra + yearOfEra / 4 - yearOfEra / 100)
  let march := (5 * dayOfYear + 2) / 153
  let month := if march < 10 then march + 3 else march - 9
  { year := yearOfEra + era * 400 + if month ≤ 2 then 1 else 0
    month
    day := dayOfYear - (153 * march + 2) / 5 + 1 }

/-! ### Text -/

/-- A number with at least `width` digits. -/
def padded (width n : Nat) : List Char :=
  let digits := Nat.toDigits 10 n
  List.replicate (width - digits.length) '0' ++ digits

/-- The fraction of a second in three, six or nine digits, or none if it is zero. -/
def fractionText (nanoseconds : Nat) : List Char :=
  if nanoseconds = 0 then []
  else if nanoseconds % 1000000 = 0 then '.' :: padded 3 (nanoseconds / 1000000)
  else if nanoseconds % 1000 = 0 then '.' :: padded 6 (nanoseconds / 1000)
  else '.' :: padded 9 nanoseconds

/-- The text of the time that is some seconds and nanoseconds after the beginning of 1970. -/
def timestamp (seconds nanoseconds : Nat) : String :=
  let date := Date.ofDays (seconds / 86400)
  let rest := seconds % 86400
  String.ofList (padded 4 date.year ++ '-' :: padded 2 date.month ++ '-' :: padded 2 date.day
    ++ 'T' :: padded 2 (rest / 3600) ++ ':' :: padded 2 (rest / 60 % 60)
    ++ ':' :: padded 2 (rest % 60) ++ fractionText nanoseconds ++ "+00:00".toList)

end Scriptorium.Catalog
