import CellFormat.Decimal.Basic
/-!
# The shortest decimal that reads back

Among the decimals that read as a given number there are some with the fewest
digits, and of those the nearest to the number is taken. For each count of
digits only two decimals matter: the neighbours of the number on the grid of
decimals with that many digits.
-/

namespace CellFormat

/-- Which of two equally near decimals is taken. -/
inductive Tie where
  | up
  | even
  deriving DecidableEq, Repr

namespace Decimal

/-- The decimal reads as this magnitude. -/
def readsAs (d : Decimal) (m : Magnitude) : Bool :=
  d.toBinary64 false = .finite false m

/-- The power of ten at the first significant digit of a magnitude other than zero. Shifting
by 324 places moves that digit of every such magnitude to the left of the point. -/
def leadingExponent (m : Magnitude) : Int :=
  (countDigits (m.units * Nat.pow 10 324 / Magnitude.one) : Int) - 325

/-- A magnitude counted in powers of ten, as a quotient. -/
def scaled (m : Magnitude) (exponent : Int) : Nat × Nat :=
  if 0 ≤ exponent then (m.units, Magnitude.one * Nat.pow 10 exponent.toNat)
  else (m.units * Nat.pow 10 (-exponent).toNat, Magnitude.one)

/-- Of the two multiples of `10 ^ exponent` around a magnitude, the nearest that reads
back, if one does. -/
def onGrid? (tie : Tie) (m : Magnitude) (exponent : Int) : Option Decimal :=
  let (p, q) := scaled m exponent
  let low : Decimal := { digits := p / q, exponent }
  let high : Decimal := { digits := p / q + 1, exponent }
  let lowIsNearer : Bool :=
    2 * (p % q) < q || (2 * (p % q) = q && tie = .even && p / q % 2 = 0)
  match low.readsAs m, high.readsAs m with
  | true, true => if lowIsNearer then some low else some high
  | true, false => some low
  | false, true => some high
  | false, false => none

/-- The value of a magnitude with all its digits. -/
def exact (m : Magnitude) : Decimal :=
  { digits := m.units * Nat.pow 5 1074, exponent := -1074 }

/-- The decimal with the fewest digits that reads as a magnitude other than zero, and the
nearest of those. Seventeen digits are always enough. -/
def shortest (tie : Tie) (m : Magnitude) : Decimal :=
  let leading := leadingExponent m
  ((List.range 17).findSome? fun (n : Nat) => onGrid? tie m (leading - n)).getD (exact m)

end Decimal

end CellFormat
