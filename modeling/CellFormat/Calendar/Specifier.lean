import CellFormat.Calendar.Instant
/-!
# Filling in specifiers

In a text with specifiers a percent sign begins one of them, two percent signs
stand for one, and all else stands for itself. A percent sign that begins no
specifier makes the text invalid.
-/

namespace CellFormat

namespace Specifier

/-- The component a letter asks for. -/
def letter? : Char → Option Token
  | 'd' => some .dayOfMonthPadded
  | 'a' => some .weekdayShort
  | 'A' => some .weekdayLong
  | 'j' => some .dayOfYearPadded
  | 'm' => some .monthPadded
  | 'b' => some .monthNameShort
  | 'B' => some .monthNameLong
  | 'y' => some .yearOfCentury
  | 'Y' => some .year
  | 'p' => some .halfOfDay
  | 'H' => some .hour24Padded
  | 'I' => some .hour12Padded
  | 'M' => some .minutePadded
  | 'S' => some .secondPadded
  | 's' => some .unixSeconds
  | _ => none

/-- The component a letter asks for after a minus sign, which takes the padding away. -/
def unpadded? : Char → Option Token
  | 'd' => some .dayOfMonth
  | 'j' => some .dayOfYear
  | 'm' => some .month
  | 'H' => some .hour24
  | 'I' => some .hour12
  | 'M' => some .minute
  | 'S' => some .second
  | _ => none

end Specifier

/-- The text with every specifier replaced by the component of the instant that it asks for;
none if some percent sign begins no specifier. -/
def Instant.fill? (t : Instant) : Text → Option Text
  | [] => some []
  | '%' :: '%' :: rest => do some ('%' :: (← fill? t rest))
  | '%' :: '-' :: c :: rest => do
    let k ← Specifier.unpadded? c
    some (t.field k ++ (← fill? t rest))
  | '%' :: '3' :: 'f' :: rest => do some (t.field .milliseconds ++ (← fill? t rest))
  | '%' :: ':' :: 'z' :: rest => do some (t.field .zoneOffset ++ (← fill? t rest))
  | '%' :: c :: rest => do
    let k ← Specifier.letter? c
    some (t.field k ++ (← fill? t rest))
  | ['%'] => none
  | c :: rest => do some (c :: (← fill? t rest))

end CellFormat
