import CellFormat.Binary64.Arithmetic
import CellFormat.Decimal.Layout
import CellFormat.Number.Locale
import CellFormat.Text.Blank
/-!
# Numeral patterns

A numeral pattern such as `$ 0,0.00[00]` asks for a currency sign, grouped
digits, decimals that are always shown and decimals that are shown unless they
are zeros at the end. A number is scaled to a whole number of its last decimal
place, a half going away from zero, and the digits of that are laid out.
-/

namespace CellFormat

/-- What a numeral pattern asks for. -/
structure Numeral where
  /-- The blanks after the currency sign, if there is a sign. -/
  currencyGap : Option Text
  grouped : Bool
  /-- The least count of digits before the decimal mark. -/
  leastDigits : Nat
  fixedPlaces : Nat
  /-- Decimals that are shown unless they are zeros at the end. -/
  optionalPlaces : Nat
  deriving DecidableEq, Repr

namespace Numeral

/-- The decimals of a numeral in all. -/
def places (n : Numeral) : Nat := n.fixedPlaces + n.optionalPlaces

/-- A pattern's currency sign with the blanks after it, and the text after those. -/
def splitCurrency : Text → Option Text × Text
  | '$' :: t => (some (t.takeWhile isBlank), t.dropWhile isBlank)
  | t => (none, t)

/-- Reads a pattern. Every pattern has a reading: only its currency sign, point, comma,
bracket and zeros matter. -/
def ofText (pattern : Text) : Numeral :=
  let (currencyGap, body) := splitCurrency pattern
  let (integer, decimals) := (Text.splitFirst? '.' body).getD (body, [])
  let (fixed, bracketed) := (Text.splitFirst? '[' decimals).getD (decimals, [])
  let optional := Text.dropTrailing (· = ']') bracketed
  { currencyGap
    grouped := integer.contains ','
    leastDigits := (Text.split ',' integer).1.count '0'
    fixedPlaces := fixed.count '0'
    optionalPlaces := optional.count '0' }

/-! ## Digits -/

/-- A mark before every third digit counted from the right. -/
def group (mark : Char) : Text → Text
  | [] => []
  | [c] => [c]
  | c :: d :: t =>
    if (d :: t).length % 3 = 0 then c :: mark :: group mark (d :: t) else c :: group mark (d :: t)

/-- The digits before the decimal mark. -/
def layInteger (n : Numeral) (locale : NumberLocale) (digits : Text) : Text :=
  let filled := Text.zeroFill (max 1 n.leastDigits) (digits.dropWhile (· = '0'))
  if n.grouped then group locale.groupMark filled else filled

/-- The decimals without zeros at the end, as far as those are optional. -/
def layDecimals (n : Numeral) (digits : Text) : Text :=
  let fixed := digits.length - n.optionalPlaces
  digits.take fixed ++ Text.dropTrailing (· = '0') (digits.drop fixed)

/-- The text of a magnitude rounded to a whole number. -/
def roundedText : Binary64 → Text
  | .nan => "NaN".toList
  | .infinite _ => "inf".toList
  | .finite _ m => Text.ofNat m.rounded

/-- The digits of a number as a whole number of its last decimal place, enough of them for
all decimals and one digit more. -/
def scaledDigits (n : Numeral) (value : Binary64) : Text :=
  Text.zeroFill (n.places + 1) (roundedText (value.abs.mul (Binary64.tenPow n.places)))

/-- A finite number. Its sign is shown if some digit is not a zero. -/
def writeFinite (n : Numeral) (locale : NumberLocale) (value : Binary64) : Text :=
  let digits := n.scaledDigits value
  let split := digits.length - n.places
  let decimals := n.layDecimals (digits.drop split)
  (if value.isNegative && digits.any (· ≠ '0') then ['-'] else [])
    ++ (match n.currencyGap with
        | some gap => locale.currency ++ gap
        | none => [])
    ++ n.layInteger locale (digits.take split)
    ++ (if decimals = [] then [] else locale.decimalMark :: decimals)

/-- A number in the form a numeral asks for. What is not finite has its own text. -/
def write (n : Numeral) (locale : NumberLocale) : Binary64 → Text
  | .finite negative m => n.writeFinite locale (.finite negative m)
  | value => NumberLayout.display.write value

end Numeral

end CellFormat
