import CellFormat.Proofs.Binary64.Nearest
import CellFormat.Proofs.Decimal.Value
import Mathlib.Order.Defs.PartialOrder
/-!
# Decimals in the order of their values

Decimals are compared as the quotients that they stand for; zeros moved between
digits and exponent make no difference (`mk_le_mk_iff`). Reading keeps this order,
so the decimals that read as one number are those between some two of them
(`readsAs_of_between`).

The power of ten at the first digit of a decimal is the greatest one that is no
larger (`pow_le_iff`).
-/

namespace CellFormat.Decimal

open Magnitude

/-! ## The order -/

instance : Preorder Decimal where
  le d d' := d.numerator * d'.denominator ≤ d'.numerator * d.denominator
  le_refl d := Nat.le_refl _
  le_trans a b c hab hbc := by
    apply Nat.le_of_mul_le_mul_right _ b.denominator_pos
    calc a.numerator * c.denominator * b.denominator
        = a.numerator * b.denominator * c.denominator := Nat.mul_right_comm ..
      _ ≤ b.numerator * a.denominator * c.denominator := Nat.mul_le_mul_right _ hab
      _ = b.numerator * c.denominator * a.denominator := Nat.mul_right_comm ..
      _ ≤ c.numerator * b.denominator * a.denominator := Nat.mul_le_mul_right _ hbc
      _ = c.numerator * a.denominator * b.denominator := Nat.mul_right_comm ..

variable {d d' : Decimal}

theorem le_iff : d ≤ d' ↔ d.numerator * d'.denominator ≤ d'.numerator * d.denominator := Iff.rfl

instance : DecidableLE Decimal := fun d d' =>
  inferInstanceAs (Decidable (d.numerator * d'.denominator ≤ d'.numerator * d.denominator))

theorem le_of_not_le (h : ¬ d ≤ d') : d' ≤ d := (Nat.le_total _ _).resolve_left h

/-- Decimals are compared by their digits, with zeros behind them that make up for the exponents. -/
theorem mk_le_mk_iff {n n' : Nat} {e e' least : Int} (he : least ≤ e) (he' : least ≤ e') :
    (⟨n, e⟩ : Decimal) ≤ ⟨n', e'⟩ ↔ n * Nat.pow 10 (e - least).toNat ≤ n' * Nat.pow 10 (e' - least).toNat := by
  obtain ⟨j, hj⟩ : ∃ j, j = Nat.pow 10 (-least).toNat := ⟨_, rfl⟩
  obtain ⟨k, hk⟩ : ∃ k, k = Nat.pow 10 (least.toNat + (-e).toNat + (-e').toNat) := ⟨_, rfl⟩
  have hjpos : 0 < j := hj ▸ Nat.pow_pos (by decide)
  have hkpos : 0 < k := hk ▸ Nat.pow_pos (by decide)
  -- Both comparisons are the same one up to powers of ten.
  have hexp : e.toNat + (-e').toNat + (-least).toNat = (e - least).toNat + (least.toNat + (-e).toNat + (-e').toNat) := by
    omega
  have hexp' : e'.toNat + (-e).toNat + (-least).toNat = (e' - least).toNat + (least.toNat + (-e).toNat + (-e').toNat) := by
    omega
  have hleft : n * Nat.pow 10 e.toNat * Nat.pow 10 (-e').toNat * j = n * Nat.pow 10 (e - least).toNat * k := by
    simp only [hj, hk, Nat.pow_eq, Nat.mul_assoc, ← Nat.pow_add] at hexp ⊢
    rw [← hexp, Nat.add_assoc]
  have hright : n' * Nat.pow 10 e'.toNat * Nat.pow 10 (-e).toNat * j = n' * Nat.pow 10 (e' - least).toNat * k := by
    simp only [hj, hk, Nat.pow_eq, Nat.mul_assoc, ← Nat.pow_add] at hexp' ⊢
    rw [← hexp', Nat.add_assoc]
  rw [le_iff, numerator, numerator, denominator, denominator, ← Nat.mul_le_mul_right_iff hjpos, hleft, hright,
    Nat.mul_le_mul_right_iff hkpos]

/-- Zeros can be moved from the exponent to the digits. -/
theorem shift_le_iff {n k : Nat} {e : Int} : (⟨n, e + k⟩ : Decimal) ≤ d ↔ ⟨n * Nat.pow 10 k, e⟩ ≤ d := by
  have hvalue : n * Nat.pow 10 (e + k - e).toNat = n * Nat.pow 10 k * Nat.pow 10 (e - e).toNat := by
    rw [Int.add_comm, Int.add_sub_cancel, Int.sub_self, Int.toNat_natCast]
    exact (Nat.mul_one _).symm
  have hle : e ≤ e + k := by omega
  constructor
  · exact Preorder.le_trans _ _ _ ((mk_le_mk_iff (Int.le_refl e) hle).2 (Nat.le_of_eq hvalue.symm))
  · exact Preorder.le_trans _ _ _ ((mk_le_mk_iff hle (Int.le_refl e)).2 (Nat.le_of_eq hvalue))

/-! ## Powers of ten -/

theorem pow_le_iff_lt_countDigits {n k : Nat} (hn : n ≠ 0) : Nat.pow 10 k ≤ n ↔ k < countDigits n := by
  constructor
  · intro h
    apply Nat.lt_of_not_le
    intro hle
    have hpow : Nat.pow 10 (countDigits n) ≤ Nat.pow 10 k := Nat.pow_le_pow_right (by decide) hle
    have hlt := lt_pow_countDigits n
    omega
  · intro h
    exact Nat.le_trans (Nat.pow_le_pow_right (by decide) (by omega)) (pow_le_of_countDigits hn)

/-- The first digit of a decimal stands at the greatest power of ten that is no larger. -/
theorem pow_le_iff {power : Int} (hd : d.digits ≠ 0) :
    (⟨1, power⟩ : Decimal) ≤ d ↔ power ≤ d.exponent + countDigits d.digits - 1 := by
  obtain ⟨n, e⟩ := d
  change n ≠ 0 at hd
  change (⟨1, power⟩ : Decimal) ≤ ⟨n, e⟩ ↔ power ≤ e + countDigits n - 1
  have hpos := countDigits_pos n
  rcases Int.le_total power e with h | h
  · have hone : 1 * Nat.pow 10 (power - power).toNat ≤ n * Nat.pow 10 (e - power).toNat := by
      rw [Int.sub_self]
      exact Nat.mul_pos (Nat.pos_of_ne_zero hd) (Nat.pow_pos (by decide))
    exact iff_of_true ((mk_le_mk_iff (Int.le_refl _) h).2 hone) (by omega)
  · have hzero : n * Nat.pow 10 (e - e).toNat = n := by
      rw [Int.sub_self]
      exact Nat.mul_one n
    rw [mk_le_mk_iff h (Int.le_refl _), hzero, Nat.one_mul, pow_le_iff_lt_countDigits hd]
    constructor <;> intro hcount <;> omega

/-! ## Reading -/

/-- The units of the number that a decimal reads as, if that is not too large. -/
def nearestUnits (d : Decimal) : Nat := nearest (d.numerator * one) d.denominator

theorem nearestUnits_mono (h : d ≤ d') : d.nearestUnits ≤ d'.nearestUnits := by
  refine nearest_mono d.denominator_pos d'.denominator_pos ?_
  rw [Nat.mul_right_comm, Nat.mul_right_comm _ one]
  exact Nat.mul_le_mul_right _ h

variable {m : Magnitude}

theorem toBinary64_eq_finite_iff {negative : Bool} :
    d.toBinary64 negative = .finite negative m ↔ d.nearestUnits = m.units := by
  rw [toBinary64_eq]
  exact Binary64.ofUnits_eq_finite_iff

theorem readsAs_iff : d.readsAs m = true ↔ d.nearestUnits = m.units := by
  rw [readsAs, decide_eq_true_eq, toBinary64_eq_finite_iff]

/-- What lies between two decimals that read as one number reads as it. -/
theorem readsAs_of_between {a b : Decimal} (ha : a.readsAs m = true) (hb : b.readsAs m = true) (hle : a ≤ d)
    (hge : d ≤ b) : d.readsAs m = true := by
  rw [readsAs_iff] at ha hb ⊢
  have hlow := nearestUnits_mono hle
  have hhigh := nearestUnits_mono hge
  omega

end CellFormat.Decimal
