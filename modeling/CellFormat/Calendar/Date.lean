import CellFormat.Text
/-!
# Dates

Dates of the Gregorian calendar, extended to all years. Days are counted from
1970-01-01. A computation by 400-year eras puts the leap day at the end of a
year that begins in March.
-/

namespace CellFormat

/-- A day of a month of a year. -/
structure Date where
  year : Int
  /-- From 1 to 12. -/
  month : Nat
  /-- From 1 on. -/
  day : Nat
  deriving DecidableEq, Repr

namespace Date

/-- Every fourth year, but of the full centuries only every fourth. -/
def isLeap (year : Int) : Bool :=
  year % 4 = 0 && (year % 100 ≠ 0 || year % 400 = 0)

/-- The date some days after 1970-01-01. -/
def ofDays (days : Int) : Date :=
  let fromMarch := days + 719468
  let era := fromMarch / 146097
  let dayOfEra := (fromMarch % 146097).toNat
  let yearOfEra := (dayOfEra - dayOfEra / 1460 + dayOfEra / 36524 - dayOfEra / 146096) / 365
  let dayOfYear := dayOfEra - (365 * yearOfEra + yearOfEra / 4 - yearOfEra / 100)
  let monthFromMarch := (5 * dayOfYear + 2) / 153
  let month := if monthFromMarch < 10 then monthFromMarch + 3 else monthFromMarch - 9
  { year := yearOfEra + era * 400 + if month ≤ 2 then 1 else 0
    month
    day := dayOfYear - (153 * monthFromMarch + 2) / 5 + 1 }

/-- The days before a month in a year. -/
def daysBefore (leap : Bool) (month : Nat) : Nat :=
  let days := [0, 31, 59, 90, 120, 151, 181, 212, 243, 273, 304, 334]
  days.getD (month - 1) 0 + if leap && 2 < month then 1 else 0

/-- The place of a date in its year, from 1 on. -/
def dayOfYear (d : Date) : Nat :=
  daysBefore (isLeap d.year) d.month + d.day

/-- The day of the week some days after 1970-01-01, a Thursday, counted from Sunday as 0. -/
def weekday (days : Int) : Nat := ((days + 4) % 7).toNat

/-- The English name of a month. -/
def monthName (month : Nat) : Text :=
  (["January", "February", "March", "April", "May", "June", "July", "August", "September",
    "October", "November", "December"].getD (month - 1) "").toList

/-- The English name of a day of the week. -/
def weekdayName (weekday : Nat) : Text :=
  (["Sunday", "Monday", "Tuesday", "Wednesday", "Thursday", "Friday", "Saturday"].getD
    weekday "").toList

/-- A name cut to its first three letters. -/
def short (name : Text) : Text := name.take 3

end Date

end CellFormat
