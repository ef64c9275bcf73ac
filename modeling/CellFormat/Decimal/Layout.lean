import CellFormat.Decimal.Shortest
/-!
# How numbers are written

A layout says which decimals are written out and which with a power of ten, and
how whole numbers and the values that are no decimals look. There are two:
`display` for cells without a display format, and `interchange` for payloads.
-/

namespace CellFormat

/-- The choices in writing a number. -/
structure NumberLayout where
  /-- A number is written out if the power of ten at its first digit is at least this … -/
  writtenFrom : Int
  /-- … and less than this. -/
  writtenBelow : Int
  /-- A whole number that is written out ends in `.0`. -/
  keepsPoint : Bool
  /-- Which of two equally near shortest decimals is written. -/
  tie : Tie
  /-- The texts of the two zeros. -/
  zero : Text
  negativeZero : Text
  /-- The texts of the values that are not finite. -/
  nan : Text
  infinite : Text
  negativeInfinite : Text

namespace NumberLayout

/-- Numbers in cells: written out from a millionth up to 10^21. -/
def display : NumberLayout where
  writtenFrom := -6
  writtenBelow := 21
  keepsPoint := false
  tie := .up
  zero := "0".toList
  negativeZero := "0".toList
  nan := "NaN".toList
  infinite := "Infinity".toList
  negativeInfinite := "-Infinity".toList

/-- Numbers in payloads: written out from 10^-5 up to 10^16, with a point that marks them as
no integers. What is not finite is absent. -/
def interchange : NumberLayout where
  writtenFrom := -5
  writtenBelow := 16
  keepsPoint := true
  tie := .even
  zero := "0.0".toList
  negativeZero := "-0.0".toList
  nan := "null".toList
  infinite := "null".toList
  negativeInfinite := "null".toList

variable (layout : NumberLayout)

/-- Digits and a point `places` digits after their start. -/
def writeOut (digits : Text) (places : Int) : Text :=
  if places ≤ 0 then
    "0.".toList ++ List.replicate (-places).toNat '0' ++ digits
  else if places.toNat < digits.length then
    digits.take places.toNat ++ '.' :: digits.drop places.toNat
  else
    digits ++ List.replicate (places.toNat - digits.length) '0'
      ++ if layout.keepsPoint then ".0".toList else []

/-- One digit, a point before the others if there are others, and a power of ten with its
sign. -/
def withPower (digits : Text) (power : Int) : Text :=
  digits.take 1 ++ (if digits.length ≤ 1 then [] else '.' :: digits.drop 1)
    ++ 'e' :: (if power < 0 then [] else ['+']) ++ Text.ofInt power

/-- A decimal other than zero. -/
def writeDecimal (d : Decimal) : Text :=
  let digits := Text.ofNat d.digits
  let power := d.exponent + digits.length - 1
  let significant := Text.dropTrailing (· = '0') digits
  if layout.writtenFrom ≤ power ∧ power < layout.writtenBelow then
    layout.writeOut significant (power + 1)
  else
    withPower significant power

/-- A number. -/
def write : Binary64 → Text
  | .nan => layout.nan
  | .infinite negative => if negative then layout.negativeInfinite else layout.infinite
  | .finite negative m =>
    if m.units = 0 then if negative then layout.negativeZero else layout.zero
    else (if negative then ['-'] else []) ++ layout.writeDecimal (.shortest layout.tie m)

end NumberLayout

end CellFormat
