import CellFormat.Binary64.Rounding
/-!
# What rounding does to a quotient

Rounding to binary64 depends on the value of a quotient only, not on how it is
written (`ofUnits_eq_of_mul_eq`), and it leaves a representable number as it is
(`ofUnits_units`). Far out on either side the result is known without rounding:
it is infinite from `overflow` on and zero below half a unit.
-/

namespace CellFormat

theorem halfEven_mul_mul {k : Nat} (hk : 0 < k) (p q : Nat) : halfEven (k * p) (k * q) = halfEven p q := by
  have hlow : 2 * (k * (p % q)) < k * q ↔ 2 * (p % q) < q := by
    rw [Nat.mul_left_comm, Nat.mul_lt_mul_left hk]
  have hhigh : k * q < 2 * (k * (p % q)) ↔ q < 2 * (p % q) := by
    rw [Nat.mul_left_comm, Nat.mul_lt_mul_left hk]
  simp only [halfEven, Nat.mul_mod_mul_left, Nat.mul_div_mul_left _ _ hk, hlow, hhigh]

theorem div_le_halfEven (p q : Nat) : p / q ≤ halfEven p q := by
  unfold halfEven
  split
  · omega
  · split <;> omega

namespace Magnitude

theorem gap_pos (u : Nat) : 0 < gap u := Nat.two_pow_pos _

theorem gap_le (u : Nat) : gap u ≤ u + 1 := by
  rcases Nat.eq_zero_or_pos u with rfl | hu
  · decide
  · have hlog : Nat.pow 2 u.log2 ≤ u := Nat.log2_self_le (Nat.ne_of_gt hu)
    have hgap : gap u ≤ Nat.pow 2 u.log2 := Nat.pow_le_pow_right Nat.two_pos (Nat.sub_le _ _)
    omega

theorem nearest_eq_of_mul_eq {p q p' q' : Nat} (hq : 0 < q) (hq' : 0 < q') (h : p * q' = p' * q) :
    nearest p q = nearest p' q' := by
  have scale {k : Nat} (hk : 0 < k) (a b : Nat) : nearest (k * a) (k * b) = nearest a b := by
    rw [nearest, Nat.mul_div_mul_left _ _ hk, Nat.mul_assoc, halfEven_mul_mul hk, nearest]
  calc nearest p q = nearest (q' * p) (q' * q) := (scale hq' p q).symm
    _ = nearest (q * p') (q * q') := by rw [Nat.mul_comm q' p, h, Nat.mul_comm p' q, Nat.mul_comm q' q]
    _ = nearest p' q' := scale hq p' q'

theorem nearest_one {u : Nat} (h : gap u ∣ u) : nearest u 1 = u := by
  -- A representable number is a multiple of its gap, so nothing is rounded off.
  have hexact : u % gap u = 0 := Nat.mod_eq_zero_of_dvd h
  rw [nearest, Nat.div_one, Nat.one_mul, halfEven, hexact, if_pos (gap_pos u)]
  exact Nat.div_mul_cancel h

theorem nearest_le (p q : Nat) : nearest p q ≤ 2 * (p / q) + 1 := by
  have hhalf := halfEven_le p (q * gap (p / q))
  rw [← Nat.div_div_eq_div_mul] at hhalf
  calc nearest p q ≤ (p / q / gap (p / q) + 1) * gap (p / q) := Nat.mul_le_mul_right _ hhalf
    _ = p / q / gap (p / q) * gap (p / q) + gap (p / q) := Nat.succ_mul _ _
    _ ≤ p / q + (p / q + 1) := Nat.add_le_add (Nat.div_mul_le_self _ _) (gap_le _)
    _ = 2 * (p / q) + 1 := by omega

/-- The power of two at the first binary digit is representable, so rounding stays above it. -/
theorem two_pow_le_nearest {k p q : Nat} (h : Nat.pow 2 k ≤ p / q) : Nat.pow 2 k ≤ nearest p q := by
  have hne : p / q ≠ 0 := Nat.ne_of_gt (Nat.lt_of_lt_of_le (Nat.two_pow_pos k) h)
  have hk : k ≤ (p / q).log2 := (Nat.le_log2 hne).2 h
  have hdvd : gap (p / q) ∣ Nat.pow 2 (p / q).log2 := Nat.pow_dvd_pow 2 (Nat.sub_le _ _)
  have hlog : Nat.pow 2 (p / q).log2 ≤ p / q := Nat.log2_self_le hne
  calc Nat.pow 2 k ≤ Nat.pow 2 (p / q).log2 := Nat.pow_le_pow_right Nat.two_pos hk
    _ = Nat.pow 2 (p / q).log2 / gap (p / q) * gap (p / q) := (Nat.div_mul_cancel hdvd).symm
    _ ≤ p / q / gap (p / q) * gap (p / q) := Nat.mul_le_mul_right _ (Nat.div_le_div_right hlog)
    _ ≤ nearest p q := by
      rw [nearest, Nat.div_div_eq_div_mul]
      exact Nat.mul_le_mul_right _ (div_le_halfEven _ _)

theorem nearest_eq_zero {p q : Nat} (h : 2 * p < q) : nearest p q = 0 := by
  have hdiv : p / q = 0 := Nat.div_eq_of_lt (by omega)
  have hgap : gap 0 = 1 := by decide
  rw [nearest, hdiv, hgap, Nat.mul_one, Nat.mul_one, halfEven, Nat.mod_eq_of_lt (by omega), if_pos h, hdiv]

end Magnitude

namespace Binary64

open Magnitude

variable {negative : Bool}

theorem ofUnits_eq_of_mul_eq {p q p' q' : Nat} (hq : 0 < q) (hq' : 0 < q') (h : p * q' = p' * q) :
    ofUnits negative p q = ofUnits negative p' q' := by
  simp only [ofUnits, nearest_eq_of_mul_eq hq hq' h]

theorem ofUnits_eq_finite_iff {p q : Nat} {m : Magnitude} :
    ofUnits negative p q = .finite negative m ↔ nearest p q = m.units := by
  obtain ⟨units, hlt, hdvd⟩ := m
  constructor
  · intro h
    unfold ofUnits at h
    split at h
    · cases h
      rfl
    · cases h
  · rintro rfl
    exact dif_pos hlt

theorem ofUnits_units (m : Magnitude) : ofUnits negative m.units 1 = .finite negative m :=
  ofUnits_eq_finite_iff.2 (nearest_one m.representable.2)

theorem ofUnits_eq_infinite {p q : Nat} (h : overflow ≤ p / q) : ofUnits negative p q = .infinite negative := by
  have hlarge : overflow ≤ nearest p q := by
    obtain ⟨k, hk⟩ : ∃ k, overflow = Nat.pow 2 k := ⟨2098, by decide +kernel⟩
    rw [hk] at h ⊢
    exact two_pow_le_nearest h
  rw [ofUnits, dif_neg (Nat.not_lt.2 hlarge)]

theorem ofUnits_eq_zero {p q : Nat} (h : 2 * p < q) : ofUnits negative p q = .finite negative .zero :=
  ofUnits_eq_finite_iff.2 (nearest_eq_zero h)

def isFinite : Binary64 → Bool
  | finite _ _ => true
  | _ => false

theorem ofUnits_ne_nan (p q : Nat) : ofUnits negative p q ≠ .nan := by
  unfold ofUnits
  split <;> exact Binary64.noConfusion

/-- Integers of 64 bits are far from the largest finite number. -/
theorem isFinite_ofRatio_one {n : Nat} (h : n ≤ 0x10000000000000000) : (ofRatio negative n 1).isFinite = true := by
  have hle : n * one ≤ 0x10000000000000000 * one := Nat.mul_le_mul_right _ h
  have hbound : 2 * (0x10000000000000000 * one) + 1 < overflow := by decide +kernel
  have hnear := nearest_le (n * one) 1
  rw [Nat.div_one] at hnear
  rw [ofRatio, ofUnits, dif_pos (by omega), isFinite]

end Binary64

end CellFormat
