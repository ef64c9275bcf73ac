import CellFormat.Calendar.Date
import CellFormat.Dialect.Token
/-!
# Instants

A moment in UTC, in milliseconds since 1970-01-01, and the text of each of its
components.
-/

namespace CellFormat

namespace Instant

/-- The first millisecond that the calendar covers, the start of the year -262143. -/
def earliest : Int := -8334601228800000

/-- The last millisecond that the calendar covers, the end of the year 262142. -/
def latest : Int := 8210266876799999

end Instant

/-- A moment that the calendar covers. -/
structure Instant where
  /-- Milliseconds since the start of 1970. -/
  millis : Int
  covered : Instant.earliest ≤ millis ∧ millis ≤ Instant.latest
  deriving DecidableEq

namespace Instant

/-- The instant at some milliseconds since 1970, if the calendar covers it. -/
def ofMillis? (millis : Int) : Option Instant :=
  if h : earliest ≤ millis ∧ millis ≤ latest then some ⟨millis, h⟩ else none

variable (t : Instant)

/-- Full days since 1970-01-01; the time of day is never negative. -/
def days : Int := t.millis / 86400000

/-- Milliseconds since the start of the day. -/
def millisOfDay : Nat := (t.millis % 86400000).toNat

/-- The date of the day. -/
def date : Date := Date.ofDays t.days

/-- The hour from 0 to 23. -/
def hour : Nat := t.millisOfDay / 3600000

/-- The minute of the hour. -/
def minute : Nat := t.millisOfDay / 60000 % 60

/-- The second of the minute. -/
def second : Nat := t.millisOfDay / 1000 % 60

/-- The millisecond of the second. -/
def millisecond : Nat := t.millisOfDay % 1000

/-- The hour from 1 to 12. -/
def hourOfHalf : Nat := if t.hour % 12 = 0 then 12 else t.hour % 12

/-- Full seconds since the start of 1970. -/
def unixSeconds : Int := t.millis / 1000

/-- A year has four digits at least. Outside of the years 0 to 9999 it has a sign. -/
def yearText (year : Int) : Text :=
  if year < 0 then '-' :: Text.ofNatFilled 4 year.natAbs
  else if year < 10000 then Text.ofNatFilled 4 year.toNat
  else '+' :: Text.ofNatFilled 4 year.toNat

/-- The text of a component. The first two places of a fraction of a second cannot be had
alone and show as nothing. -/
def field : Token → Text
  | .dayOfMonth => Text.ofNat t.date.day
  | .dayOfMonthPadded => Text.ofNatFilled 2 t.date.day
  | .weekdayShort => Date.short (Date.weekdayName (Date.weekday t.days))
  | .weekdayLong => Date.weekdayName (Date.weekday t.days)
  | .dayOfYear => Text.ofNat t.date.dayOfYear
  | .dayOfYearPadded => Text.ofNatFilled 3 t.date.dayOfYear
  | .month => Text.ofNat t.date.month
  | .monthPadded => Text.ofNatFilled 2 t.date.month
  | .monthNameShort => Date.short (Date.monthName t.date.month)
  | .monthNameLong => Date.monthName t.date.month
  | .yearOfCentury => Text.ofNatFilled 2 (t.date.year % 100).toNat
  | .year => yearText t.date.year
  | .halfOfDay => if t.hour < 12 then "AM".toList else "PM".toList
  | .hour24 => Text.ofNat t.hour
  | .hour24Padded => Text.ofNatFilled 2 t.hour
  | .hour12 => Text.ofNat t.hourOfHalf
  | .hour12Padded => Text.ofNatFilled 2 t.hourOfHalf
  | .minute => Text.ofNat t.minute
  | .minutePadded => Text.ofNatFilled 2 t.minute
  | .second => Text.ofNat t.second
  | .secondPadded => Text.ofNatFilled 2 t.second
  | .tenths => []
  | .hundredths => []
  | .milliseconds => Text.ofNatFilled 3 t.millisecond
  | .zoneOffset => "+00:00".toList
  | .unixSeconds => Text.ofInt t.unixSeconds

end Instant

end CellFormat
