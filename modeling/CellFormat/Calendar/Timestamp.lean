import CellFormat.Binary64.Arithmetic
import CellFormat.Calendar.Specifier
import CellFormat.Dialect.Standard
import CellFormat.Dialect.Conversion
/-!
# Timestamps

Timestamps are stored as numbers: positive ones below 10^11 are seconds, all
others milliseconds. A timestamp is shown by a datepicker pattern, which is
converted to specifiers and then filled in.
-/

namespace CellFormat

/-- Why a timestamp cannot be shown. -/
inductive TimestampError where
  /-- The calendar does not cover the instant. -/
  | outOfRange (millis : Int)
  /-- The number is infinite or not a number. -/
  | notFinite
  /-- The reader of specifiers refuses the converted pattern. There is no wording for that: the program would
  stop with a panic. It never comes to that, as `format_eq_shown` says, since every percent sign of a
  literal is doubled. -/
  | invalidSpecifier (pattern : Text)
  deriving DecidableEq, Repr

namespace TimestampError

/-- The wording of an error that can come up. -/
def message : TimestampError → Text
  | outOfRange millis => "timestamp out of range: ".toList ++ Text.ofInt millis ++ " ms".toList
  | notFinite => "timestamp is not a finite number".toList
  | invalidSpecifier _ => []

end TimestampError

namespace Timestamp

/-- The least signed integer of 64 bits. -/
def leastMillis : Int := -0x8000000000000000

/-- The greatest signed integer of 64 bits. -/
def greatestMillis : Int := 0x7FFFFFFFFFFFFFFF

/-- 10^11, where milliseconds begin. -/
def secondsLimit : Nat := 100000000000 * Magnitude.one

/-- A number without its fraction, as far as 64 bits go. -/
def saturated (negative : Bool) (m : Magnitude) : Int :=
  if negative then max leastMillis (-(m.whole : Int)) else min greatestMillis m.whole

/-- The milliseconds of a stored timestamp, without their fraction. -/
def millis : Binary64 → Except TimestampError Int
  | .finite negative m =>
    let inSeconds := !negative && 0 < m.units && m.units < secondsLimit
    let scaled := if inSeconds then (Binary64.finite negative m).mul (.ofNat 1000)
      else .finite negative m
    match scaled with
    | .finite negative m => .ok (saturated negative m)
    | _ => .error .notFinite
  | _ => .error .notFinite

/-- An instant filled into a pattern with specifiers by `fill?`, which may find it invalid. -/
def fillBy (fill? : Instant → Text → Option Text) (t : Instant) (specifiers : Text) :
    Except TimestampError Text :=
  match fill? t specifiers with
  | some text => .ok text
  | none => .error (.invalidSpecifier specifiers)

/-- The instant at some milliseconds in the form of a datepicker pattern, filled in by `fill?`. -/
def formatBy (fill? : Instant → Text → Option Text) (millis : Int) (pattern : Text) :
    Except TimestampError Text :=
  match Instant.ofMillis? millis with
  | none => .error (.outOfRange millis)
  | some t => fillBy fill? t (Dialect.datepicker.convert .strftime pattern)

/-- The instant at some milliseconds in the form of a datepicker pattern. -/
def format : Int → Text → Except TimestampError Text := formatBy Instant.fill?

end Timestamp

end CellFormat
