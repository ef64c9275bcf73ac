import CellFormat.Proofs.Binary64.Nearest
import CellFormat.Proofs.Calendar.StoredTimestamp
/-!
# Milliseconds of stored seconds

Seconds with three decimals are stored as the nearest binary64 number, and their
milliseconds are the whole part of its rounded thousandfold. Both roundings
together move it by less than one (`nearest_thousand_near`), but where they end
below a whole number, the millisecond before it is taken.

`millis_of_thousandths` says when that happens: if the stored number falls short
of the seconds by more than the rounding of its thousandfold makes up for. This
takes a power of two that is only just greater than the milliseconds.
-/

namespace CellFormat.Timestamp

open Magnitude

/-- The thousandfold of `u` units falls short of `k` by half a gap at most, if at all. -/
def Reaches (u k : Nat) : Prop := 2 * (k * one) ≤ 2 * (1000 * u) + gap (1000 * u)

instance (u k : Nat) : Decidable (Reaches u k) := inferInstanceAs (Decidable (_ ≤ _))

/-! ## Two roundings -/

section
variable {k : Nat} (hlt : k < 100000000000000)
include hlt

theorem succ_mul_one_le : k * one + one ≤ 100000000000000 * one := by
  rw [← Nat.succ_mul]
  exact Nat.mul_le_mul_right one hlt

/-- The thousandfold of the stored seconds is close to the milliseconds. -/
theorem thousand_nearest_near :
    128 * (1000 * nearest (k * one) 1000) ≤ 128 * (k * one) + one ∧
      128 * (k * one) ≤ 128 * (1000 * nearest (k * one) 1000) + one := by
  have hone := units_one_pos
  have hk := succ_mul_one_le hlt
  have hpow : Nat.pow 2 37 = 137438953472 ∧ Nat.pow 2 (53 - 37) = 65536 := by decide
  have hbelow : k * one / 1000 < Nat.pow 2 37 * one := by
    rw [hpow.1]
    omega
  have hgap := Nat.le_of_dvd hone (two_pow_mul_gap_dvd (by decide) hbelow)
  rw [hpow.2] at hgap
  have herror := nearest_error (k * one) (q := 1000) (by decide)
  omega

/-- So is the thousandfold after rounding. -/
theorem nearest_thousand_near :
    64 * nearest (1000 * nearest (k * one) 1000) 1 ≤ 64 * (k * one) + one ∧
      64 * (k * one) ≤ 64 * nearest (1000 * nearest (k * one) 1000) 1 + one := by
  have hone := units_one_pos
  have hk := succ_mul_one_le hlt
  have hstored := thousand_nearest_near hlt
  generalize nearest (k * one) 1000 = u at hstored ⊢
  have hpow : Nat.pow 2 47 = 140737488355328 ∧ Nat.pow 2 (53 - 47) = 64 := by decide
  have hbelow : 1000 * u < Nat.pow 2 47 * one := by
    rw [hpow.1]
    omega
  have hgap := Nat.le_of_dvd hone (two_pow_mul_gap_dvd (by decide) hbelow)
  rw [hpow.2] at hgap
  have herror := nearest_error (1000 * u) Nat.one_pos
  rw [Nat.div_one] at herror
  omega

/-! ## Where the roundings end -/

/-- The rounded thousandfold is not below `k` if the exact one does not fall short by more than half
a gap. In the middle it goes up, since a whole number of ones is an even multiple of the gap. -/
theorem mul_one_le_nearest_iff :
    k * one ≤ nearest (1000 * nearest (k * one) 1000) 1 ↔ Reaches (nearest (k * one) 1000) k := by
  have hk := succ_mul_one_le hlt
  have hstored := thousand_nearest_near hlt
  have hdvd := gap_dvd_mul_one (Nat.le_of_lt (Nat.lt_trans hlt (by decide : _ < Nat.pow 2 53)))
  unfold Reaches
  generalize nearest (k * one) 1000 = u at hstored ⊢
  have herror := nearest_error (1000 * u) Nat.one_pos
  rw [Nat.div_one] at herror
  constructor
  · intro hle
    omega
  · intro hreach
    rcases Nat.lt_or_ge (1000 * u) (k * one) with hshort | hover
    · have hpow : Nat.pow 2 47 = 140737488355328 := by decide
      have hbelow : 1000 * u < Nat.pow 2 47 * one := by
        rw [hpow]
        omega
      have heven : 2 * gap (1000 * u) ∣ k * one := by
        refine Nat.dvd_trans ?_ (Nat.dvd_mul_left one k)
        exact Nat.dvd_trans (Nat.mul_dvd_mul_right (by decide) _) (two_pow_mul_gap_dvd (by decide) hbelow)
      have hmultiple : gap (1000 * u) ∣ k * one := Nat.dvd_trans (gap_dvd_gap (Nat.le_of_lt hshort)) hdvd
      apply Nat.le_of_eq
      refine (nearest_eq_of_near Nat.one_pos ?_ ?_ ?_ (.inl ?_)).symm <;> rw [Nat.div_one]
      · exact hmultiple
      · omega
      · omega
      · exact heven
    · exact le_nearest_of_le Nat.one_pos hdvd (by omega)

/-- The whole milliseconds of the stored seconds. -/
theorem whole_nearest_thousand (hpos : 0 < k) :
    nearest (1000 * nearest (k * one) 1000) 1 / one = if Reaches (nearest (k * one) 1000) k then k else k - 1 := by
  have hone := units_one_pos
  have hnear := nearest_thousand_near hlt
  have hnext : (k + 1) * one = k * one + one := Nat.succ_mul _ _
  have hprev : (k - 1) * one + one = k * one := by
    rw [← Nat.succ_mul, Nat.succ_eq_add_one, Nat.sub_add_cancel hpos]
  split
  · next hreach =>
    have hle := (mul_one_le_nearest_iff hlt).2 hreach
    exact Nat.div_eq_of_lt_le (by omega) (by omega)
  · next hshort =>
    have hlt' : nearest (1000 * nearest (k * one) 1000) 1 < k * one :=
      Nat.lt_of_not_le fun hle => hshort ((mul_one_le_nearest_iff hlt).1 hle)
    exact Nat.div_eq_of_lt_le (by omega) (by rw [Nat.sub_add_cancel hpos]; exact hlt')

omit hlt in
/-- The power of two at the first binary digit of the seconds, in milliseconds of 1024 to the second. -/
theorem exists_two_pow_seconds (hpos : 0 < k) :
    ∃ i, Nat.pow 2 i * one = 1024 * Nat.pow 2 (k * one / 1000).log2 ∧ 52 ≤ (k * one / 1000).log2 ∧ k * one / 1000 ≠ 0 := by
  obtain ⟨e, he, hone⟩ : ∃ e, 52 ≤ e ∧ one = 1024 * Nat.pow 2 e := ⟨1064, by decide, by decide +kernel⟩
  have hk : one ≤ k * one := Nat.le_mul_of_pos_left one hpos
  have hlarge : Nat.pow 2 e ≤ k * one / 1000 := by omega
  have hne : k * one / 1000 ≠ 0 := Nat.ne_of_gt (Nat.lt_of_lt_of_le (Nat.two_pow_pos e) hlarge)
  have hlog : e ≤ (k * one / 1000).log2 := (Nat.le_log2 hne).2 hlarge
  refine ⟨(k * one / 1000).log2 - e, ?_, Nat.le_trans he hlog, hne⟩
  rw [hone, Nat.mul_left_comm, Nat.pow_eq, Nat.pow_eq, Nat.pow_eq, ← Nat.pow_add, Nat.sub_add_cancel (hone ▸ hlog)]

/-- A power of two is not passed in the rounding of the seconds. -/
theorem reaches_two_pow {i : Nat} (hi : k = Nat.pow 2 i) : Reaches (nearest (k * one) 1000) k := by
  have hall : ∀ j < 47, Reaches (nearest (Nat.pow 2 j * one) 1000) (Nat.pow 2 j) := by decide +kernel
  have hfew : i < 47 := by
    rw [hi] at hlt
    exact (Nat.pow_lt_pow_iff_right Nat.one_lt_two).1 (Nat.lt_trans hlt (by decide : _ < Nat.pow 2 47))
  rw [hi]
  exact hall i hfew

/-- If no power of two is between `k` and 1.024 times `k`, the gap at the thousandfold is at least as
large as a thousand gaps at the seconds. -/
theorem reaches_of_no_two_pow (hpos : 0 < k) (h : ∀ i, ¬ (k < Nat.pow 2 i ∧ 1000 * Nat.pow 2 i < 1024 * k)) :
    Reaches (nearest (k * one) 1000) k := by
  have hone := units_one_pos
  have hstored := thousand_nearest_near hlt
  have herror := nearest_error (k * one) (q := 1000) (by decide)
  obtain ⟨i, hi, hlog, hne⟩ := exists_two_pow_seconds hpos
  have hlow : Nat.pow 2 (k * one / 1000).log2 ≤ k * one / 1000 := Nat.log2_self_le hne
  have hgap := two_pow_mul_gap_le_gap (v := 1000 * nearest (k * one) 1000) (j := 10) hlog
  have hexact := nearest_mul (q := 1000) (by decide) (gap_dvd_two_pow (k * one / 1000).log2)
  rw [Nat.pow_eq, Nat.pow_add, ← Nat.pow_eq] at hgap
  generalize Nat.pow 2 (k * one / 1000).log2 = low at hi hlow hgap hexact
  rcases Nat.lt_or_ge k (Nat.pow 2 i) with hbelow | habove
  · -- The seconds cannot begin between powers of two then: they are one.
    have hends : 1000 * (Nat.pow 2 i * one) = 1024 * (k * one) := by
      have hle : 1000 * Nat.pow 2 i ≤ 1024 * k := by
        refine Nat.le_of_mul_le_mul_right ?_ hone
        rw [Nat.mul_assoc, Nat.mul_assoc, hi]
        omega
      have heq : 1000 * Nat.pow 2 i = 1024 * k := by
        have hno := h i
        omega
      rw [← Nat.mul_assoc, heq, Nat.mul_assoc]
    have hk : k * one = low * 1000 := by omega
    unfold Reaches
    rw [hk, hexact]
    omega
  · rcases Nat.lt_or_eq_of_le habove with hmore | heq
    · have hnext : Nat.pow 2 i * one + one ≤ k * one := by
        rw [← Nat.succ_mul]
        exact Nat.mul_le_mul_right one hmore
      have hten : Nat.pow 2 10 = 1024 := by decide
      rw [hten] at hgap
      have hgap := hgap (by omega)
      unfold Reaches
      omega
    · exact reaches_two_pow hlt heq.symm

end

/-! ## The milliseconds -/

/-- The milliseconds of a positive number of seconds, rounded and cut. -/
theorem millis_of_seconds {m : Magnitude} (hpos : 0 < m.units) (hlt : m.units < 100000000000 * one) :
    millis (.finite false m) = .ok (saturate (nearest (1000 * m.units) 1 / one : Nat)) := by
  have hseconds : (!false && decide (0 < m.units) && decide (m.units < secondsLimit)) = true := by
    rw [Bool.not_false, Bool.true_and, decide_eq_true hpos, Bool.true_and]
    exact decide_eq_true hlt
  have hfinite : ((Binary64.finite false m).mul (.ofNat 1000)).isFinite = true := Binary64.isFinite_mul_thousand hlt
  rw [millis_eq, exactMillis?, inMillis_finite, if_pos hseconds]
  rw [Binary64.mul_thousand] at hfinite ⊢
  cases hproduct : Binary64.ofUnits false (1000 * m.units) 1 with
  | nan => rw [hproduct] at hfinite; cases hfinite
  | infinite _ => rw [hproduct] at hfinite; cases hfinite
  | finite negative w =>
    obtain ⟨hsign, hvalue⟩ : negative = false ∧ nearest (1000 * m.units) 1 = w.units := by
      unfold Binary64.ofUnits at hproduct
      split at hproduct
      · cases hproduct
        exact ⟨rfl, rfl⟩
      · cases hproduct
    rw [hsign, Binary64.truncated?_finite, hvalue]
    rfl

theorem saturate_of_lt {k : Nat} (hlt : k < 100000000000000) : saturate k = k := by
  simp only [saturate, leastMillis, greatestMillis]
  omega

/-- The milliseconds of a number that is stored in milliseconds. -/
theorem millis_ofNat {k : Nat} (hge : 100000000000 ≤ k) (hlt : k < 100000000000000) : millis (.ofNat k) = .ok k := by
  have hone := units_one_pos
  have hbound : 100000000000000 * one < overflow := by decide +kernel
  have hdvd : gap (k * one) ∣ k * one := gap_dvd_mul_one (Nat.le_of_lt (Nat.lt_trans hlt (by decide)))
  have hover : k * one < overflow := Nat.lt_trans (Nat.mul_lt_mul_of_pos_right hlt hone) hbound
  have hnat : Binary64.ofNat k = .finite false ⟨k * one, hover, hdvd⟩ := by
    rw [Binary64.ofNat, Binary64.ofRatio]
    exact Binary64.ofUnits_eq_finite_iff.2 (nearest_one hdvd)
  have hmillis : ¬ (!false && decide (0 < k * one) && decide (k * one < secondsLimit)) = true := by
    rw [Bool.and_eq_true, decide_eq_true_eq]
    exact fun h => Nat.not_lt.2 (Nat.mul_le_mul_right one hge) h.2
  have hwhole : Magnitude.whole ⟨k * one, hover, hdvd⟩ = k := Nat.mul_div_cancel k hone
  rw [hnat, millis_eq, exactMillis?, inMillis_finite, if_neg hmillis, Binary64.truncated?_finite, hwhole]
  exact congrArg Except.ok (saturate_of_lt hlt)

/-- The milliseconds of seconds with three decimals are the intended ones if the stored number reaches
them, and one less if not; they are reached if no power of two is between `k` and 1.024 times `k`.
An instant that is stored in milliseconds keeps them all. -/
theorem millis_of_thousandths {k : Nat} (hpos : 0 < k) (hlt : k < 100000000000000) :
    ∃ m : Magnitude, Binary64.ofRatio false k 1000 = .finite false m ∧
      millis (.ofRatio false k 1000) = .ok (if Reaches m.units k then (k : Int) else k - 1) ∧
      ((∀ i, ¬ (k < Nat.pow 2 i ∧ 1000 * Nat.pow 2 i < 1024 * k)) → Reaches m.units k) ∧
      (100000000000 ≤ k → millis (.ofNat k) = .ok k) := by
  have hone := units_one_pos
  have hk := succ_mul_one_le hlt
  have hk' : one ≤ k * one := Nat.le_mul_of_pos_left one hpos
  have hstored := thousand_nearest_near hlt
  have hseconds : 0 < nearest (k * one) 1000 ∧ nearest (k * one) 1000 < 100000000000 * one := by omega
  have hover : nearest (k * one) 1000 < overflow := Nat.lt_trans hseconds.2 (by decide +kernel)
  have hratio : Binary64.ofRatio false k 1000 = .finite false ⟨_, hover, gap_dvd_nearest _ _⟩ := by
    rw [Binary64.ofRatio]
    exact Binary64.ofUnits_eq_finite_iff.2 rfl
  refine ⟨_, hratio, ?_, reaches_of_no_two_pow hlt hpos, fun hge => millis_ofNat hge hlt⟩
  rw [hratio, millis_of_seconds hseconds.1 hseconds.2, whole_nearest_thousand hlt hpos]
  split
  · rw [saturate_of_lt hlt]
  · rw [saturate_of_lt (by omega), Int.ofNat_sub hpos]
    rfl

/-- Seconds that no power of two follows closely. -/
theorem millis_of_thousandths_today :
    0 < 1700000000123 ∧ 1700000000123 < 100000000000000 ∧
      millis (.ofRatio false 1700000000123 1000) = .ok 1700000000123 ∧
      millis (.ofNat 1700000000123) = .ok 1700000000123 := by
  have hnone : ∀ i, ¬ (1700000000123 < Nat.pow 2 i ∧ 1000 * Nat.pow 2 i < 1024 * 1700000000123) := by
    intro i hi
    have hpow : Nat.pow 2 40 = 1099511627776 ∧ Nat.pow 2 41 = 2199023255552 := by decide
    rcases Nat.lt_or_ge 40 i with hlarge | hsmall
    · have hmono : Nat.pow 2 41 ≤ Nat.pow 2 i := Nat.pow_le_pow_right Nat.two_pos hlarge
      omega
    · have hmono : Nat.pow 2 i ≤ Nat.pow 2 40 := Nat.pow_le_pow_right Nat.two_pos hsmall
      omega
  obtain ⟨m, -, hmillis, hreach, hstored⟩ := millis_of_thousandths (k := 1700000000123) (by decide) (by decide)
  rw [if_pos (hreach hnone)] at hmillis
  exact ⟨by decide, by decide, hmillis, hstored (by decide)⟩

/-- In seconds, the first millisecond after 1974-04-12T12:00 is not reached, and 2 to the 37th is only
just greater: the milliseconds before it are taken. -/
theorem millis_of_thousandths_below_two_pow :
    0 < 135000000001 ∧ 135000000001 < 100000000000000 ∧
      millis (.ofRatio false 135000000001 1000) = .ok 135000000000 ∧
      millis (.ofNat 135000000001) = .ok 135000000001 := by
  decide +kernel

end CellFormat.Timestamp
