import HdlReview.Decimal.Notation

/-!
# Points in time

A point in time is a number of seconds since the start of 1970 and is written as a date of the
Gregorian calendar and a time of day. The calendar repeats every 400 years, and its years are
counted here from March on, so that the leap day is the last day of a year.

## Main definitions

* `Date`, `Date.ofDays`: the date some days after the first of January 1970
* `timestamp seconds`: the text of a point in time
-/

namespace HdlReview.Audit

open HdlReview.Decimal

/-- A date. -/
structure Date where
  year : Int
  month : Nat
  day : Nat
deriving DecidableEq, Repr

/-- The days of 400 years. -/
def daysOfCycle : Nat := 146097

/-- The days from the first of March of the year 0 to the first of January 1970. -/
def daysBefore1970 : Nat := 719468

/-- The year of a cycle, from March on, in which a day of the cycle falls. -/
def yearOfCycle (day : Nat) : Nat :=
  (day - day / 1460 + day / 36524 - day / 146096) / 365

/-- The day of a year, from March on, of a day of a cycle. -/
def dayOfYear (day : Nat) : Nat :=
  let year := yearOfCycle day
  day - (365 * year + year / 4 - year / 100)

/-- The date some days after the first of January 1970. -/
def Date.ofDays (days : Int) : Date :=
  let shifted := days + daysBefore1970
  let day := (shifted % daysOfCycle).toNat
  let fromMarch := (5 * dayOfYear day + 2) / 153
  let month := if fromMarch < 10 then fromMarch + 3 else fromMarch - 9
  let year := shifted / daysOfCycle * 400 + yearOfCycle day
  ⟨if month ≤ 2 then year + 1 else year, month, dayOfYear day - (153 * fromMarch + 2) / 5 + 1⟩

/-- A number with at least two digits. -/
def twoDigits (n : Nat) : String :=
  if n < 10 then "0" ++ natText n else natText n

/-- **The text of a point in time**. -/
def timestamp (seconds : Int) : String :=
  let date := Date.ofDays (seconds / 86400)
  let time := (seconds % 86400).toNat
  intText date.year ++ "-" ++ twoDigits date.month ++ "-" ++ twoDigits date.day ++ "T" ++
    twoDigits (time / 3600) ++ ":" ++ twoDigits (time / 60 % 60) ++ ":" ++
    twoDigits (time % 60) ++ "Z"

end HdlReview.Audit
