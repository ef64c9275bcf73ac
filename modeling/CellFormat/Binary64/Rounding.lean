import CellFormat.Binary64.Basic
/-!
# Rounding to binary64

A quotient of natural numbers goes to the nearest number of units that is
representable, and to the one with the even significand if two are equally near.
`gap_dvd_nearest` says that the outcome is representable unless it overflows.
-/

namespace CellFormat

/-- The natural number nearest to `p / q`; a half goes to the even neighbour. -/
def halfEven (p q : Nat) : Nat :=
  if 2 * (p % q) < q then p / q
  else if q < 2 * (p % q) then p / q + 1
  else p / q + p / q % 2

theorem halfEven_le (p q : Nat) : halfEven p q ≤ p / q + 1 := by
  unfold halfEven
  split
  · omega
  · split <;> omega

namespace Magnitude

/-- The number of units nearest to `p / q` units. -/
def nearest (p q : Nat) : Nat :=
  halfEven p (q * gap (p / q)) * gap (p / q)

theorem div_gap_lt (u : Nat) : u / gap u < Nat.pow 2 53 := by
  have hu : u < Nat.pow 2 (u.log2 + 1) := Nat.lt_log2_self
  have hg : 0 < gap u := Nat.two_pow_pos _
  rw [Nat.div_lt_iff_lt_mul hg]
  refine Nat.lt_of_lt_of_le hu ?_
  simp only [gap, Nat.pow_eq, ← Nat.pow_add]
  exact Nat.pow_le_pow_right (by decide) (by omega)

/-- Up to 53 binary digits in front of zeros make a representable number. -/
theorem gap_dvd_mul_two_pow {t : Nat} (ht : t ≤ Nat.pow 2 53) (e : Nat) :
    gap (t * Nat.pow 2 e) ∣ t * Nat.pow 2 e := by
  rcases Nat.eq_zero_or_pos t with rfl | hpos
  · simp [gap]
  rcases Nat.lt_or_eq_of_le ht with hlt | rfl
  · have hne : t * Nat.pow 2 e ≠ 0 := Nat.ne_of_gt (Nat.mul_pos hpos (Nat.two_pow_pos e))
    have hlog : (t * Nat.pow 2 e).log2 < 53 + e := by
      rw [Nat.log2_lt hne, Nat.pow_add]
      exact Nat.mul_lt_mul_of_pos_right hlt (Nat.two_pow_pos e)
    exact Nat.dvd_trans (Nat.pow_dvd_pow 2 (by omega)) (Nat.dvd_mul_left _ _)
  · simp only [gap, Nat.pow_eq, ← Nat.pow_add, Nat.log2_two_pow]
    exact Nat.pow_dvd_pow 2 (by omega)

theorem gap_dvd_nearest (p q : Nat) : gap (nearest p q) ∣ nearest p q := by
  have h1 := halfEven_le p (q * gap (p / q))
  have h2 := div_gap_lt (p / q)
  rw [Nat.div_div_eq_div_mul] at h2
  exact gap_dvd_mul_two_pow (by omega) _

end Magnitude

namespace Binary64

/-- The number nearest to `p / q` units, infinite if it is too large. -/
def ofUnits (negative : Bool) (p q : Nat) : Binary64 :=
  if h : Magnitude.nearest p q < Magnitude.overflow then
    finite negative ⟨Magnitude.nearest p q, h, Magnitude.gap_dvd_nearest p q⟩
  else infinite negative

/-- The number nearest to `p / q`. -/
def ofRatio (negative : Bool) (p q : Nat) : Binary64 :=
  ofUnits negative (p * Magnitude.one) q

/-- The number nearest to a natural number. -/
def ofNat (n : Nat) : Binary64 := ofRatio false n 1

end Binary64

end CellFormat
