import CellFormat.Decimal.Shortest
import CellFormat.Proofs.Binary64.Rounding
/-!
# The value of a decimal

Reading a decimal answers exponents far out of range without computing the
value. `toBinary64_eq` says that these answers are the right ones: the outcome
is always the exact value, as a quotient, rounded once. So decimals of one value
are read alike, and moving zeros between digits and exponent changes nothing
(`toBinary64_shift`).

The shortest decimal of a magnitude is only known to read back where the search
finds one; `toBinary64_shortest` adds that the exact value, which is taken
otherwise, reads back as well.
-/

namespace CellFormat

namespace Decimal

open Magnitude

/-! ## Counting digits -/

theorem countDigits_pos (n : Nat) : 0 < countDigits n := Nat.length_toDigits_pos

theorem countDigits_le_iff {n k : Nat} (hk : 0 < k) : countDigits n ≤ k ↔ n < Nat.pow 10 k :=
  Nat.length_toDigits_le_iff (by decide) hk

theorem lt_pow_countDigits (n : Nat) : n < Nat.pow 10 (countDigits n) :=
  (countDigits_le_iff (countDigits_pos n)).1 (Nat.le_refl _)

theorem pow_le_of_countDigits {n : Nat} (hn : n ≠ 0) : Nat.pow 10 (countDigits n - 1) ≤ n := by
  have hpos := countDigits_pos n
  rcases Nat.eq_or_lt_of_le hpos with hone | hmore
  · rw [← hone]
    exact Nat.pos_of_ne_zero hn
  · have hshort : ¬ countDigits n ≤ countDigits n - 1 := by omega
    rw [countDigits_le_iff (by omega)] at hshort
    exact Nat.not_lt.1 hshort

/-! ## Values as quotients -/

def numerator (d : Decimal) : Nat := d.digits * Nat.pow 10 d.exponent.toNat

def denominator (d : Decimal) : Nat := Nat.pow 10 (-d.exponent).toNat

theorem denominator_pos (d : Decimal) : 0 < d.denominator := Nat.pow_pos (by decide)

variable {d : Decimal} {negative : Bool}

theorem ofRatio_eq_infinite (hd : d.digits ≠ 0) (h : 400 < d.exponent + countDigits d.digits - 1) :
    Binary64.ofRatio negative d.numerator d.denominator = .infinite negative := by
  have hpos := countDigits_pos d.digits
  obtain ⟨k, hk, hunits⟩ : ∃ k, k ≤ 401 ∧ overflow ≤ Nat.pow 10 k * one := ⟨401, Nat.le_refl _, by decide +kernel⟩
  have hlarge : Nat.pow 10 k * d.denominator ≤ d.numerator := by
    calc Nat.pow 10 k * d.denominator = Nat.pow 10 (k + (-d.exponent).toNat) := (Nat.pow_add ..).symm
      _ ≤ Nat.pow 10 (countDigits d.digits - 1 + d.exponent.toNat) := Nat.pow_le_pow_right (by decide) (by omega)
      _ = Nat.pow 10 (countDigits d.digits - 1) * Nat.pow 10 d.exponent.toNat := Nat.pow_add ..
      _ ≤ d.numerator := Nat.mul_le_mul_right _ (pow_le_of_countDigits hd)
  refine Binary64.ofUnits_eq_infinite ((Nat.le_div_iff_mul_le d.denominator_pos).2 ?_)
  calc overflow * d.denominator ≤ Nat.pow 10 k * one * d.denominator := Nat.mul_le_mul_right _ hunits
    _ = Nat.pow 10 k * d.denominator * one := Nat.mul_right_comm ..
    _ ≤ d.numerator * one := Nat.mul_le_mul_right _ hlarge

theorem ofRatio_eq_zero (h : d.exponent + countDigits d.digits < -400) :
    Binary64.ofRatio negative d.numerator d.denominator = .finite negative .zero := by
  obtain ⟨k, hk, hunits⟩ : ∃ k, k ≤ 400 ∧ 2 * one ≤ Nat.pow 10 k := ⟨400, Nat.le_refl _, by decide +kernel⟩
  have hwhole : d.exponent.toNat = 0 := by omega
  have hnum : d.numerator < Nat.pow 10 (countDigits d.digits) := by
    rw [numerator, hwhole]
    exact Nat.lt_of_le_of_lt (Nat.le_of_eq (Nat.mul_one _)) (lt_pow_countDigits _)
  apply Binary64.ofUnits_eq_zero
  calc 2 * (d.numerator * one) = d.numerator * (2 * one) := Nat.mul_left_comm ..
    _ < Nat.pow 10 (countDigits d.digits) * (2 * one) := Nat.mul_lt_mul_of_pos_right hnum (by decide +kernel)
    _ ≤ Nat.pow 10 (countDigits d.digits) * Nat.pow 10 k := Nat.mul_le_mul_left _ hunits
    _ = Nat.pow 10 (countDigits d.digits + k) := (Nat.pow_add ..).symm
    _ ≤ d.denominator := Nat.pow_le_pow_right (by decide) (by omega)

/-- Reading a decimal rounds its exact value, however large or small. -/
theorem toBinary64_eq (negative : Bool) (d : Decimal) :
    d.toBinary64 negative = .ofRatio negative d.numerator d.denominator := by
  have hpos := countDigits_pos d.digits
  -- Outside of the two limits the rounded quotient is known; between them it is the definition.
  unfold toBinary64
  split
  · next hzero =>
    rw [numerator, hzero, Nat.zero_mul, Binary64.ofRatio, Nat.zero_mul,
      Binary64.ofUnits_eq_zero d.denominator_pos]
  · next hd =>
    split
    · next hhigh => exact (ofRatio_eq_infinite hd (by omega)).symm
    · split
      · next hlow => exact (ofRatio_eq_zero hlow).symm
      · split
        · next hint =>
          have hden : (-d.exponent).toNat = 0 := by omega
          rw [denominator, hden]
          rfl
        · next hint =>
          have hnum : d.exponent.toNat = 0 := by omega
          rw [numerator, hnum]
          exact congrArg (Binary64.ofRatio negative · _) (Nat.mul_one _).symm

theorem toBinary64_eq_of_mul_eq {d d' : Decimal}
    (h : d.numerator * d'.denominator = d'.numerator * d.denominator) : d.toBinary64 negative = d'.toBinary64 negative := by
  rw [toBinary64_eq, toBinary64_eq]
  apply Binary64.ofUnits_eq_of_mul_eq d.denominator_pos d'.denominator_pos
  rw [Nat.mul_right_comm, h, Nat.mul_right_comm]

theorem toBinary64_shift (negative : Bool) (n k : Nat) (e : Int) :
    toBinary64 negative ⟨n * Nat.pow 10 k, e⟩ = toBinary64 negative ⟨n, e + k⟩ := by
  apply toBinary64_eq_of_mul_eq
  simp only [numerator, denominator, Nat.pow_eq, Nat.mul_assoc, ← Nat.pow_add]
  congr 2
  omega

/-- What reads as a finite number has its first digit at a power of ten of at most 400. -/
theorem power_le_of_toBinary64 {m : Magnitude} (hd : d.digits ≠ 0)
    (h : d.toBinary64 negative = .finite negative m) : d.exponent + countDigits d.digits - 1 ≤ 400 := by
  apply Int.not_lt.1
  intro hlarge
  rw [toBinary64_eq, ofRatio_eq_infinite hd hlarge] at h
  cases h

/-! ## Reading back -/

theorem toBinary64_of_readsAs {m : Magnitude} (h : d.readsAs m = true) :
    d.toBinary64 negative = .finite negative m := by
  rw [readsAs, decide_eq_true_eq, toBinary64_eq] at h
  rw [toBinary64_eq]
  exact Binary64.ofUnits_eq_finite_iff.2 (Binary64.ofUnits_eq_finite_iff.1 h)

theorem readsAs_of_onGrid? {tie : Tie} {m : Magnitude} {e : Int} (h : onGrid? tie m e = some d) :
    d.readsAs m = true := by
  unfold onGrid? at h
  dsimp only at h
  split at h
  · split at h <;> cases h <;> assumption
  · cases h
    assumption
  · cases h
    assumption
  · cases h

/-- The exact decimal is the number of units over the units in one, with a power of five in both. -/
theorem exists_exact_quotient (m : Magnitude) :
    ∃ t, 0 < t ∧ (exact m).numerator = m.units * t ∧ (exact m).denominator = t * one := by
  have hpos : 0 < Nat.pow 5 1074 := by decide +kernel
  have hunits : Nat.pow 10 (-(-1074 : Int)).toNat = Nat.pow 5 1074 * one := by decide +kernel
  refine ⟨Nat.pow 5 1074, hpos, Nat.mul_one _, ?_⟩
  rw [denominator, exact, hunits]

theorem readsAs_exact (m : Magnitude) : (exact m).readsAs m = true := by
  obtain ⟨t, -, hnum, hden⟩ := exists_exact_quotient m
  rw [readsAs, decide_eq_true_eq, toBinary64_eq, ← Binary64.ofUnits_units m]
  apply Binary64.ofUnits_eq_of_mul_eq (exact m).denominator_pos Nat.one_pos
  rw [Nat.mul_one, hnum, hden, Nat.mul_assoc]

/-- The shortest decimal reads back, under either sign. -/
theorem toBinary64_shortest (negative : Bool) (tie : Tie) (m : Magnitude) :
    (shortest tie m).toBinary64 negative = .finite negative m := by
  apply toBinary64_of_readsAs
  unfold shortest
  dsimp only
  cases hfound : (List.range 17).findSome? fun (n : Nat) => onGrid? tie m (leadingExponent m - n) with
  | none => exact readsAs_exact m
  | some d =>
    obtain ⟨n, -, hn⟩ := List.exists_of_findSome?_eq_some hfound
    exact readsAs_of_onGrid? hn

theorem digits_ne_zero_of_toBinary64 {m : Magnitude} (hm : m.units ≠ 0)
    (h : d.toBinary64 negative = .finite negative m) : d.digits ≠ 0 := by
  intro hzero
  rw [toBinary64, if_pos hzero, Binary64.finite.injEq] at h
  exact hm (congrArg Magnitude.units h.2.symm)

theorem digits_shortest_ne_zero {tie : Tie} {m : Magnitude} (h : m.units ≠ 0) : (shortest tie m).digits ≠ 0 :=
  digits_ne_zero_of_toBinary64 h (toBinary64_shortest false tie m)

end Decimal

end CellFormat
