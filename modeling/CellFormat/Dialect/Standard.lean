import CellFormat.Dialect.Quoting
/-!
# The standard dialects

`moment` quotes literals with brackets, `datepicker` with apostrophes, and
`strftime` introduces every token by a percent sign. `strftime` has no fraction
of a second with one or two digits.
-/

namespace CellFormat.Dialect

/-- Letters repeated for longer forms; literals in brackets. -/
def moment : Dialect where
  name := "moment".toList
  spell
    | .dayOfMonth => "D".toList
    | .dayOfMonthPadded => "DD".toList
    | .weekdayShort => "ddd".toList
    | .weekdayLong => "dddd".toList
    | .dayOfYear => "DDD".toList
    | .dayOfYearPadded => "DDDD".toList
    | .month => "M".toList
    | .monthPadded => "MM".toList
    | .monthNameShort => "MMM".toList
    | .monthNameLong => "MMMM".toList
    | .yearOfCentury => "YY".toList
    | .year => "YYYY".toList
    | .halfOfDay => "A".toList
    | .hour24 => "H".toList
    | .hour24Padded => "HH".toList
    | .hour12 => "h".toList
    | .hour12Padded => "hh".toList
    | .minute => "m".toList
    | .minutePadded => "mm".toList
    | .second => "s".toList
    | .secondPadded => "ss".toList
    | .tenths => "S".toList
    | .hundredths => "SS".toList
    | .milliseconds => "SSS".toList
    | .zoneOffset => "Z".toList
    | .unixSeconds => "X".toList
  reserved := "MoDdeEwWYgGAaHhmsSzZX".toList
  escape := Quoting.Bracket.quote
  recognize := Quoting.atPosition Quoting.Bracket.region?

/-- The patterns that display formats of dates are stored in; literals in apostrophes. -/
def datepicker : Dialect where
  name := "datepicker".toList
  spell
    | .dayOfMonth => "d".toList
    | .dayOfMonthPadded => "dd".toList
    | .weekdayShort => "D".toList
    | .weekdayLong => "DD".toList
    | .dayOfYear => "o".toList
    | .dayOfYearPadded => "oo".toList
    | .month => "m".toList
    | .monthPadded => "mm".toList
    | .monthNameShort => "M".toList
    | .monthNameLong => "MM".toList
    | .yearOfCentury => "yy".toList
    | .year => "yyyy".toList
    | .halfOfDay => "A".toList
    | .hour24 => "H".toList
    | .hour24Padded => "HH".toList
    | .hour12 => "h".toList
    | .hour12Padded => "hh".toList
    | .minute => "n".toList
    | .minutePadded => "nn".toList
    | .second => "s".toList
    | .secondPadded => "ss".toList
    | .tenths => "S".toList
    | .hundredths => "SS".toList
    | .milliseconds => "SSS".toList
    | .zoneOffset => "Z".toList
    | .unixSeconds => "@".toList
  reserved := "dDomMy@'AHhnsSZ".toList
  escape := Quoting.Apostrophe.quote
  recognize := Quoting.atPosition Quoting.Apostrophe.region?

/-- A percent sign in front of every token; a literal percent sign is written twice. -/
def strftime : Dialect where
  name := "strftime".toList
  spell
    | .dayOfMonth => "%-d".toList
    | .dayOfMonthPadded => "%d".toList
    | .weekdayShort => "%a".toList
    | .weekdayLong => "%A".toList
    | .dayOfYear => "%-j".toList
    | .dayOfYearPadded => "%j".toList
    | .month => "%-m".toList
    | .monthPadded => "%m".toList
    | .monthNameShort => "%b".toList
    | .monthNameLong => "%B".toList
    | .yearOfCentury => "%y".toList
    | .year => "%Y".toList
    | .halfOfDay => "%p".toList
    | .hour24 => "%-H".toList
    | .hour24Padded => "%H".toList
    | .hour12 => "%-I".toList
    | .hour12Padded => "%I".toList
    | .minute => "%-M".toList
    | .minutePadded => "%M".toList
    | .second => "%-S".toList
    | .secondPadded => "%S".toList
    | .tenths => []
    | .hundredths => []
    | .milliseconds => "%3f".toList
    | .zoneOffset => "%:z".toList
    | .unixSeconds => "%s".toList
  reserved := "%".toList
  escape := Quoting.Percent.quote
  recognize := Quoting.atPosition Quoting.Percent.region?

end CellFormat.Dialect
