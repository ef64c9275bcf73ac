import CellFormat.Binary64.Rounding
/-!
# Decimals

A decimal is a natural number shifted by a power of ten. Reading one as a
binary64 number rounds its exact value once.
-/

namespace CellFormat

/-- The value `digits * 10 ^ exponent`. -/
structure Decimal where
  digits : Nat
  exponent : Int
  deriving DecidableEq, Repr

namespace Decimal

/-- The number of decimal digits; zero has one. -/
def countDigits (n : Nat) : Nat := (Nat.toDigits 10 n).length

/-- The binary64 number nearest to a decimal. Exponents that lead out of the range on either
side are answered without raising ten to them. -/
def toBinary64 (negative : Bool) (d : Decimal) : Binary64 :=
  if d.digits = 0 then .finite negative .zero
  else if 400 < d.exponent then .infinite negative
  else if d.exponent + countDigits d.digits < -400 then .finite negative .zero
  else if 0 ≤ d.exponent then .ofRatio negative (d.digits * Nat.pow 10 d.exponent.toNat) 1
  else .ofRatio negative d.digits (Nat.pow 10 (-d.exponent).toNat)

/-! ## Reading numerals -/

/-- The natural number that decimal digits stand for. -/
def natOfDigits (t : Text) : Nat :=
  t.foldl (fun n c => 10 * n + (c.toNat - '0'.toNat)) 0

/-- The natural number written by one digit or more, and nothing else. -/
def nat? (t : Text) : Option Nat :=
  if t ≠ [] ∧ t.all Char.isDigit then some (natOfDigits t) else none

/-- An integer with an optional sign. -/
def int? : Text → Option Int
  | '-' :: t => (nat? t).map fun n => -(n : Int)
  | '+' :: t => (nat? t).map Int.ofNat
  | t => (nat? t).map Int.ofNat

/-- Digits with an optional point among them or before or after them. -/
def mantissa? (t : Text) : Option Decimal :=
  match Text.splitFirst? '.' t with
  | none => (nat? t).map fun n => { digits := n, exponent := 0 }
  | some (whole, fraction) =>
    (nat? (whole ++ fraction)).map fun n => { digits := n, exponent := -(fraction.length : Int) }

/-- A numeral without a sign: digits with an optional point, and an optional power of ten
after an `e`. -/
def ofText? (t : Text) : Option Decimal :=
  match Text.splitFirst? 'e' (t.map Char.toLower) with
  | none => mantissa? t
  | some (mantissa, exponent) => do
    let m ← mantissa? mantissa
    let e ← int? exponent
    some { m with exponent := m.exponent + e }

end Decimal

/-- The number nearest to a signed numeral. -/
def Binary64.ofNumeral? : Text → Option Binary64
  | '-' :: t => (Decimal.ofText? t).map (Decimal.toBinary64 true)
  | t => (Decimal.ofText? t).map (Decimal.toBinary64 false)

end CellFormat
