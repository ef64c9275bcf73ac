import CellFormat.Text
/-!
# Binary64 numbers

Every finite binary64 number is a whole number of units of 2^-1074, so its
magnitude is held as that natural number and arithmetic on it is exact. Which
numbers of units occur is `Representable`: at most 53 significant binary digits,
and less than 2^1024 in all.
-/

namespace CellFormat

/-! ## Magnitudes -/

namespace Magnitude

/-- The number of units in one. -/
def one : Nat := Nat.pow 2 1074

/-- The number of units in 2^1024, where the finite numbers end. -/
def overflow : Nat := Nat.pow 2 2098

/-- The distance between neighbouring numbers around `units`. -/
def gap (units : Nat) : Nat := Nat.pow 2 (units.log2 - 52)

/-- Whether a finite number has this many units. -/
def Representable (units : Nat) : Prop := units < overflow ∧ gap units ∣ units

instance (units : Nat) : Decidable (Representable units) :=
  inferInstanceAs (Decidable (_ ∧ _))

end Magnitude

/-- The magnitude of a finite number. -/
structure Magnitude where
  units : Nat
  representable : Magnitude.Representable units
  deriving DecidableEq

namespace Magnitude

theorem overflow_pos : 0 < overflow := by decide +kernel

/-- No units at all. -/
def zero : Magnitude := ⟨0, overflow_pos, Nat.dvd_zero _⟩

/-- The magnitude without its fraction. -/
def whole (m : Magnitude) : Nat := m.units / one

/-- The nearest natural number; a half goes up. -/
def rounded (m : Magnitude) : Nat := (2 * m.units + one) / (2 * one)

end Magnitude

/-! ## Numbers -/

/-- A binary64 number. There are two zeros, which differ in sign, and a single NaN. -/
inductive Binary64 where
  | nan
  | infinite (negative : Bool)
  | finite (negative : Bool) (magnitude : Magnitude)
  deriving DecidableEq

namespace Binary64

/-- The number without its sign. -/
def abs : Binary64 → Binary64
  | nan => nan
  | infinite _ => infinite false
  | finite _ m => finite false m

/-- Less than zero; neither zero is. -/
def isNegative : Binary64 → Bool
  | nan => false
  | infinite negative => negative
  | finite negative m => negative && 0 < m.units

end Binary64

end CellFormat
