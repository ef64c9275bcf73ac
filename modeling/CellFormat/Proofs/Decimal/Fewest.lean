import CellFormat.Proofs.Decimal.Digits
import CellFormat.Proofs.Decimal.Order
/-!
# The shortest decimal has the fewest digits

The search tries the grids of one digit, two digits and so on, and on each only
the two neighbours of the number. That is enough: if any multiple of the grid's
step reads back, a neighbour does (`onGrid?_ne_none_of_readsAs`), and what reads
back with fewer digits lies on a coarser grid (`onGrid?_ne_none_of_digits`).
With seventeen digits the step is so small that a neighbour always reads back
(`onGrid?_ne_none_of_fine`), so the search finds what no decimal of fewer digits
can replace (`length_significant_shortest_le`).

`pow_le_shortest_iff` is what the choice of a layout rests on: the shortest
decimal is at least a power of ten if and only if the number is at least the
one that this power reads as.
-/

namespace CellFormat.Decimal

open Magnitude

variable {m : Magnitude} {d : Decimal} {e : Int}

/-! ## Neighbours on a grid -/

/-- How many times `10 ^ exponent` goes into a magnitude. -/
def below (m : Magnitude) (exponent : Int) : Nat := (scaled m exponent).1 / (scaled m exponent).2

theorem scaled_eq (m : Magnitude) (e : Int) :
    scaled m e = (m.units * Nat.pow 10 (-e).toNat, one * Nat.pow 10 e.toNat) := by
  unfold scaled
  split
  · have hzero : (-e).toNat = 0 := by omega
    simp only [hzero, Nat.pow_eq, Nat.pow_zero, Nat.mul_one]
  · have hzero : e.toNat = 0 := by omega
    simp only [hzero, Nat.pow_eq, Nat.pow_zero, Nat.mul_one]

theorem scaled_pos (m : Magnitude) (e : Int) : 0 < (scaled m e).2 := by
  rw [scaled_eq]
  exact Nat.mul_pos units_one_pos (Nat.pow_pos (by decide))

theorem mk_le_exact_iff {a : Nat} : (⟨a, e⟩ : Decimal) ≤ exact m ↔ a ≤ below m e := by
  obtain ⟨t, ht, hnum, hden⟩ := exists_exact_quotient m
  have hleft : a * Nat.pow 10 e.toNat * (t * one) = a * (one * Nat.pow 10 e.toNat) * t := by
    rw [Nat.mul_comm one, ← Nat.mul_assoc a, Nat.mul_assoc _ one, Nat.mul_comm one]
  have hright : m.units * t * Nat.pow 10 (-e).toNat = m.units * Nat.pow 10 (-e).toNat * t := Nat.mul_right_comm ..
  have hpos := scaled_pos m e
  rw [scaled_eq] at hpos
  rw [le_iff, hnum, hden, numerator, denominator, hleft, hright, Nat.mul_le_mul_right_iff ht, below, scaled_eq,
    Nat.le_div_iff_mul_le hpos]

theorem exact_le_succ_below (m : Magnitude) (e : Int) : exact m ≤ ⟨below m e + 1, e⟩ := by
  apply le_of_not_le
  rw [mk_le_exact_iff]
  omega

theorem onGrid?_eq_none_iff {tie : Tie} :
    onGrid? tie m e = none ↔
      readsAs ⟨below m e, e⟩ m = false ∧ readsAs ⟨below m e + 1, e⟩ m = false := by
  unfold onGrid? below
  dsimp only
  split
  · split <;> simp_all
  · simp_all
  · simp_all
  · simp_all

theorem eq_of_onGrid? {tie : Tie} (h : onGrid? tie m e = some d) :
    d = ⟨below m e, e⟩ ∨ d = ⟨below m e + 1, e⟩ := by
  unfold onGrid? at h
  dsimp only at h
  split at h
  · split at h <;> cases h
    · exact .inl rfl
    · exact .inr rfl
  · cases h
    exact .inl rfl
  · cases h
    exact .inr rfl
  · cases h

/-- If a decimal of the grid reads back, the neighbour on the same side lies between it and the number. -/
theorem onGrid?_ne_none_of_readsAs (tie : Tie) {t : Nat} (h : readsAs ⟨t, e⟩ m = true) : onGrid? tie m e ≠ none := by
  rw [Ne, onGrid?_eq_none_iff, not_and_or, Bool.not_eq_false, Bool.not_eq_false]
  rcases Nat.lt_or_ge (below m e) t with hlt | hge
  · refine .inr (readsAs_of_between (readsAs_exact m) h (exact_le_succ_below m e) ?_)
    exact (mk_le_mk_iff (Int.le_refl e) (Int.le_refl e)).2 (Nat.mul_le_mul_right _ hlt)
  · refine .inl (readsAs_of_between h (readsAs_exact m) ?_ (mk_le_exact_iff.2 (Nat.le_refl _)))
    exact (mk_le_mk_iff (Int.le_refl e) (Int.le_refl e)).2 (Nat.mul_le_mul_right _ hge)

/-! ## The grid of so many digits -/

theorem below_fraction (m : Magnitude) (k : Nat) : below m (-k) = m.units * Nat.pow 10 k / one := by
  have hzero : (-(k : Int)).toNat = 0 := by omega
  have hk : (- -(k : Int)).toNat = k := by omega
  simp only [below, scaled_eq, hzero, hk, Nat.pow_eq, Nat.pow_zero, Nat.mul_one]

theorem below_fraction_ne_zero (hm : m.units ≠ 0) {k : Nat} (hk : one ≤ Nat.pow 10 k) : below m (-k) ≠ 0 := by
  rw [below_fraction]
  refine Nat.ne_of_gt (Nat.div_pos ?_ units_one_pos)
  exact Nat.le_trans hk (Nat.le_mul_of_pos_left _ (Nat.pos_of_ne_zero hm))

/-- The first digit of a magnitude stands at its leading power of ten. -/
theorem pow_le_exact_iff (hm : m.units ≠ 0) {power : Int} (hp : -324 ≤ power) :
    (⟨1, power⟩ : Decimal) ≤ exact m ↔ power ≤ leadingExponent m := by
  obtain ⟨k, hk, hone⟩ : ∃ k, k = 324 ∧ one ≤ Nat.pow 10 k := ⟨324, rfl, by decide +kernel⟩
  have hleading : leadingExponent m = countDigits (m.units * Nat.pow 10 k / one) - 325 := by rw [hk, leadingExponent]
  obtain ⟨j, rfl⟩ : ∃ j : Nat, power = -(k : Int) + j := ⟨(power + k).toNat, by omega⟩
  rw [shift_le_iff, mk_le_exact_iff, Nat.one_mul, pow_le_iff_lt_countDigits (below_fraction_ne_zero hm hone),
    below_fraction, hleading]
  omega

theorem leadingExponent_ge (m : Magnitude) : -324 ≤ leadingExponent m := by
  have hpos := countDigits_pos (m.units * Nat.pow 10 324 / one)
  rw [leadingExponent]
  omega

variable (hm : m.units ≠ 0)
include hm

/-- `n` places behind the leading power of ten, a magnitude has `n + 1` digits. -/
theorem below_leading (n : Nat) :
    Nat.pow 10 n ≤ below m (leadingExponent m - n) ∧ below m (leadingExponent m - n) < Nat.pow 10 (n + 1) := by
  have hge := leadingExponent_ge m
  have hshift (k : Nat) : (⟨1, leadingExponent m - n + k⟩ : Decimal) ≤ exact m ↔
      Nat.pow 10 k ≤ below m (leadingExponent m - n) := by
    rw [shift_le_iff, mk_le_exact_iff, Nat.one_mul]
  constructor
  · rw [← hshift, pow_le_exact_iff hm (by omega)]
    omega
  · rw [← Nat.not_le, ← hshift, pow_le_exact_iff hm (by omega)]
    omega

/-- A decimal of at most `n + 1` digits that reads back lies on the grid of so many digits, or the power of
ten at the first digit reads back too. -/
theorem onGrid?_ne_none_of_digits (tie : Tie) {n : Nat} (hd : d.digits < Nat.pow 10 (n + 1)) (h : d.readsAs m = true) :
    onGrid? tie m (leadingExponent m - n) ≠ none := by
  obtain ⟨t, e⟩ := d
  have hge := leadingExponent_ge m
  have hshift {a k : Nat} (ha : readsAs ⟨a, leadingExponent m - n + k⟩ m = true) :
      onGrid? tie m (leadingExponent m - n) ≠ none := by
    rw [readsAs, ← toBinary64_shift] at ha
    exact onGrid?_ne_none_of_readsAs tie ha
  rcases Int.lt_or_le e (leadingExponent m - n) with hlt | hon
  · have hle : (⟨t, e⟩ : Decimal) ≤ ⟨1, leadingExponent m - n + n⟩ := by
      rw [mk_le_mk_iff (Int.le_refl e) (by omega), Int.sub_self, Nat.one_mul]
      refine Nat.le_trans (Nat.le_of_eq (Nat.mul_one t)) (Nat.le_trans (Nat.le_of_lt hd) ?_)
      exact Nat.pow_le_pow_right (by decide) (by omega)
    have hexact : (⟨1, leadingExponent m - n + n⟩ : Decimal) ≤ exact m := by
      rw [pow_le_exact_iff hm (by omega)]
      omega
    exact hshift (readsAs_of_between h (readsAs_exact m) hle hexact)
  · obtain ⟨k, rfl⟩ : ∃ k : Nat, e = leadingExponent m - n + k := ⟨(e - (leadingExponent m - n)).toNat, by omega⟩
    exact hshift h

omit hm in
/-- Where a magnitude has seventeen digits, one of its neighbours reads back. -/
theorem onGrid?_ne_none_of_fine (tie : Tie) (h : 10000000000000000 ≤ below m e) : onGrid? tie m e ≠ none := by
  have hreads {t : Nat} (hnear : nearest (t * (one * Nat.pow 10 e.toNat)) (Nat.pow 10 (-e).toNat) = m.units) :
      readsAs ⟨t, e⟩ m = true := by
    rw [readsAs_iff, nearestUnits, numerator, denominator, Nat.mul_assoc, Nat.mul_comm _ one]
    exact hnear
  have hstep := scaled_pos m e
  rw [below, scaled_eq] at h
  rw [scaled_eq] at hstep
  rw [Ne, onGrid?_eq_none_iff, not_and_or, Bool.not_eq_false, Bool.not_eq_false, below, scaled_eq]
  exact (nearest_neighbour (Nat.pow_pos (by decide)) hstep m.representable.2 h).imp hreads hreads

/-! ## The first grid with a hit -/

omit hm in
theorem findSome?_range_of_ne_none {α : Type} {f : Nat → Option α} {k n : Nat} (hk : k < n) (h : f k ≠ none) :
    ∃ j ≤ k, ∃ x, f j = some x ∧ (List.range n).findSome? f = some x := by
  induction n with
  | zero => omega
  | succ n ih =>
    rw [List.range_succ, List.findSome?_append]
    rcases Nat.lt_succ_iff_lt_or_eq.1 hk with hlt | rfl
    · obtain ⟨j, hj, x, hx, hfound⟩ := ih hlt
      exact ⟨j, hj, x, hx, by rw [hfound]; rfl⟩
    · cases hfound : (List.range k).findSome? f with
      | some x =>
        obtain ⟨j, hj, hx⟩ := List.exists_of_findSome?_eq_some hfound
        exact ⟨j, Nat.le_of_lt (List.mem_range.1 hj), x, hx, rfl⟩
      | none =>
        obtain ⟨x, hx⟩ := Option.ne_none_iff_exists'.1 h
        exact ⟨k, Nat.le_refl k, x, hx, by simp [hx]⟩

omit hm in
theorem length_significant_le {n k : Nat} (hk : 0 < k) (h : n ≤ Nat.pow 10 k) : (significant n).length ≤ k := by
  rcases Nat.lt_or_eq_of_le h with hlt | rfl
  · obtain ⟨j, -, hcount⟩ := exists_significant_mul_pow n
    have hle := (countDigits_le_iff hk).2 hlt
    omega
  · rw [significant_pow]
    exact hk

/-- A hit on the grid of `n + 1` digits bounds the digits of the shortest decimal. -/
theorem length_significant_shortest_le_of_onGrid? {tie : Tie} {n : Nat} (hn : n < 17)
    (h : onGrid? tie m (leadingExponent m - n) ≠ none) :
    (significant (shortest tie m).digits).length ≤ n + 1 := by
  obtain ⟨j, hj, x, hx, hfound⟩ := findSome?_range_of_ne_none (f := fun n : Nat => onGrid? tie m (leadingExponent m - n)) hn h
  have hshortest : shortest tie m = x := by
    rw [shortest, hfound, Option.getD_some]
  have hdigits : x.digits ≤ Nat.pow 10 (j + 1) := by
    have hlt := (below_leading hm j).2
    rcases eq_of_onGrid? hx with rfl | rfl
    · exact Nat.le_of_lt hlt
    · exact hlt
  rw [hshortest]
  exact Nat.le_trans (length_significant_le (Nat.succ_pos j) hdigits) (Nat.succ_le_succ hj)

/-- No decimal that reads as a number has fewer significant digits than the shortest one. -/
theorem length_significant_shortest_le (tie : Tie) (h : d.readsAs m = true) :
    (significant (shortest tie m).digits).length ≤ (significant d.digits).length := by
  have hread : d.toBinary64 false = .finite false m := toBinary64_of_readsAs h
  have hd : d.digits ≠ 0 := digits_ne_zero_of_toBinary64 hm hread
  obtain ⟨k, hk⟩ := Nat.exists_eq_succ_of_ne_zero (List.length_pos_iff.2 (significant_ne_nil hd)).ne'
  have hshort := (toBinary64_significant false d).trans hread
  have hlt := natOfDigits_significant_lt d.digits
  rw [hk] at hlt
  rw [hk]
  rcases Nat.lt_or_ge k 17 with hsmall | hlarge
  · exact length_significant_shortest_le_of_onGrid? hm hsmall (onGrid?_ne_none_of_digits hm tie hlt (decide_eq_true hshort))
  · have hfine := onGrid?_ne_none_of_fine tie (below_leading hm 16).1
    exact Nat.le_trans (length_significant_shortest_le_of_onGrid? hm (by decide) hfine) (by omega)

/-! ## Powers of ten -/

omit hm in
/-- The shortest decimal is at least a power of ten if the number is at least the one that the power reads as,
provided that it is so for this number itself. -/
theorem pow_le_shortest_iff {tie : Tie} {b : Magnitude} {power : Int} (hb : readsAs ⟨1, power⟩ b = true)
    (hself : ⟨1, power⟩ ≤ shortest tie b) : ⟨1, power⟩ ≤ shortest tie m ↔ b.units ≤ m.units := by
  have hm : (shortest tie m).nearestUnits = m.units := toBinary64_eq_finite_iff.1 (toBinary64_shortest false tie m)
  rw [readsAs_iff] at hb
  constructor
  · intro h
    rw [← hb, ← hm]
    exact nearestUnits_mono h
  · intro h
    apply Decidable.byContradiction
    intro hlt
    -- Below the power, the number would be no larger, so it would be the same one.
    have hle := nearestUnits_mono (le_of_not_le hlt)
    rw [hm, hb] at hle
    have heq : m = b := eq_of_units_eq (Nat.le_antisymm hle h)
    rw [heq] at hlt
    exact hlt hself

end CellFormat.Decimal
