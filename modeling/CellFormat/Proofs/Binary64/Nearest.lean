import CellFormat.Proofs.Binary64.Rounding
/-!
# Rounding keeps the order

A larger quotient is not rounded to a smaller number (`nearest_mono`), so a
quotient stays on the same side of every representable number, and what lies
between two quotients that are rounded alike is rounded like them.

Rounding moves a quotient by half a gap at most (`nearest_error`), and a
multiple of the gap that is less than half a gap away is the outcome
(`nearest_eq_of_near`). So any number is the outcome for one of the two
multiples of a step around it, if the step is fine enough (`nearest_neighbour`).
-/

namespace CellFormat

/-! ## Rounding to natural numbers -/

/-- The quotient is rounded down, up, or lies in the middle and goes to the even side. -/
theorem halfEven_cases (p q : Nat) :
    (halfEven p q = p / q ∧ 2 * (p % q) < q) ∨ (halfEven p q = p / q + 1 ∧ q < 2 * (p % q)) ∨
      (halfEven p q = p / q + p / q % 2 ∧ 2 * (p % q) = q) := by
  unfold halfEven
  split
  · next hlow => exact .inl ⟨rfl, hlow⟩
  · split
    · next hhigh => exact .inr (.inl ⟨rfl, hhigh⟩)
    · exact .inr (.inr ⟨rfl, by omega⟩)

theorem halfEven_mono {p p' : Nat} (q : Nat) (h : p ≤ p') : halfEven p q ≤ halfEven p' q := by
  have hdiv : p / q ≤ p' / q := Nat.div_le_div_right h
  rcases Nat.lt_or_eq_of_le hdiv with hlt | heq
  · have hle := halfEven_le p q
    have hge := div_le_halfEven p' q
    omega
  · -- Quotients of one whole part are ordered like their remainders.
    have hmod : p % q ≤ p' % q := by
      have hp := Nat.div_add_mod p q
      have hp' := Nat.div_add_mod p' q
      rw [heq] at hp
      omega
    rcases halfEven_cases p q with ⟨hp, hr⟩ | ⟨hp, hr⟩ | ⟨hp, hr⟩ <;>
      rcases halfEven_cases p' q with ⟨hp', hr'⟩ | ⟨hp', hr'⟩ | ⟨hp', hr'⟩ <;> omega

/-- Rounding moves a quotient by half at most. -/
theorem halfEven_error {p q : Nat} (hq : 0 < q) :
    2 * (halfEven p q * q) ≤ 2 * p + q ∧ 2 * p ≤ 2 * (halfEven p q * q) + q := by
  have hp : p / q * q + p % q = p := Nat.div_add_mod' p q
  have hr := Nat.mod_lt p hq
  have hnext : (p / q + 1) * q = p / q * q + q := Nat.succ_mul _ _
  rcases halfEven_cases p q with ⟨he, h⟩ | ⟨he, h⟩ | ⟨he, h⟩
  · rw [he]
    omega
  · rw [he]
    omega
  · rcases Nat.mod_two_eq_zero_or_one (p / q) with hbit | hbit <;> rw [he, hbit]
    · rw [Nat.add_zero]
      omega
    · omega

/-- A natural number no more than half away is the nearest, if it is even or less than half away. -/
theorem halfEven_eq {p q s : Nat} (hq : 0 < q) (hlow : 2 * (s * q) ≤ 2 * p + q) (hhigh : 2 * p ≤ 2 * (s * q) + q)
    (h : s % 2 = 0 ∨ 2 * (s * q) ≠ 2 * p + q ∧ 2 * p ≠ 2 * (s * q) + q) : halfEven p q = s := by
  have hp : p / q * q + p % q = p := Nat.div_add_mod' p q
  have hr := Nat.mod_lt p hq
  have hnext : (p / q + 1) * q = p / q * q + q := Nat.succ_mul _ _
  -- Only the two numbers around the quotient are that near.
  have hside : s = p / q ∨ s = p / q + 1 := by
    have hge : p / q ≤ s := by
      apply Nat.le_of_not_lt
      intro hlt
      have hmul : (s + 1) * q ≤ p / q * q := Nat.mul_le_mul_right q hlt
      rw [Nat.add_one_mul] at hmul
      omega
    have hle : s ≤ p / q + 1 := by
      apply Nat.le_of_not_lt
      intro hlt
      have hmul : (p / q + 1 + 1) * q ≤ s * q := Nat.mul_le_mul_right q hlt
      rw [Nat.add_one_mul, hnext] at hmul
      omega
    omega
  rcases hside with rfl | rfl
  · rcases halfEven_cases p q with ⟨he, hm⟩ | ⟨he, hm⟩ | ⟨he, hm⟩ <;> omega
  · rw [hnext] at hlow hhigh h
    rcases halfEven_cases p q with ⟨he, hm⟩ | ⟨he, hm⟩ | ⟨he, hm⟩ <;> omega

namespace Magnitude

theorem units_one_pos : 0 < one := by decide +kernel

theorem eq_of_units_eq {m m' : Magnitude} (h : m.units = m'.units) : m = m' := by
  cases m
  cases m'
  cases h
  rfl

/-! ## Gaps -/

theorem gap_le_gap {u v : Nat} (h : u ≤ v) : gap u ≤ gap v := by
  rcases Nat.eq_zero_or_pos u with rfl | hu
  · exact gap_pos v
  · have hlog : u.log2 ≤ v.log2 := by
      rw [Nat.le_log2 (by omega)]
      exact Nat.le_trans (Nat.log2_self_le (by omega)) h
    exact Nat.pow_le_pow_right Nat.two_pos (Nat.sub_le_sub_right hlog 52)

theorem gap_dvd_gap {u v : Nat} (h : u ≤ v) : gap u ∣ gap v :=
  (Nat.pow_dvd_pow_iff_le_right Nat.one_lt_two).2 ((Nat.pow_le_pow_iff_right Nat.one_lt_two).1 (gap_le_gap h))

theorem gap_dvd_two_pow (e : Nat) : gap (Nat.pow 2 e) ∣ Nat.pow 2 e := by
  have h := gap_dvd_mul_two_pow (t := 1) (by decide) e
  rwa [Nat.one_mul] at h

/-- A natural number of 53 binary digits at most is representable. -/
theorem gap_dvd_mul_one {k : Nat} (hk : k ≤ Nat.pow 2 53) : gap (k * one) ∣ k * one := by
  obtain ⟨e, hone⟩ : ∃ e, one = Nat.pow 2 e := ⟨1074, by decide +kernel⟩
  rw [hone]
  exact gap_dvd_mul_two_pow hk e

/-- Below `2 ^ j` the gaps are a small part of one. -/
theorem two_pow_mul_gap_dvd {u j : Nat} (hj : j ≤ 53) (h : u < Nat.pow 2 j * one) :
    Nat.pow 2 (53 - j) * gap u ∣ one := by
  obtain ⟨e, he, hone⟩ : ∃ e, e = 1074 ∧ one = Nat.pow 2 e := ⟨1074, rfl, by decide +kernel⟩
  rw [hone] at h ⊢
  have hgap : gap u ∣ Nat.pow 2 (j + e - 53) := by
    rcases Nat.eq_zero_or_pos u with rfl | hu
    · exact Nat.one_dvd _
    · rw [Nat.pow_eq, Nat.pow_eq, ← Nat.pow_add] at h
      have hlog : u.log2 < j + e := (Nat.log2_lt (by omega)).2 h
      exact Nat.pow_dvd_pow 2 (by omega)
  have hexp : 53 - j + (j + e - 53) = e := by omega
  have hmul : Nat.pow 2 (53 - j) * Nat.pow 2 (j + e - 53) = Nat.pow 2 e := by
    rw [Nat.pow_eq, Nat.pow_eq, ← Nat.pow_add, hexp, Nat.pow_eq]
  rw [← hmul]
  exact Nat.mul_dvd_mul_left _ hgap

/-- Numbers that are `2 ^ j` times as large have gaps that are. -/
theorem two_pow_mul_gap_le_gap {u v j : Nat} (hu : 52 ≤ u.log2) (h : Nat.pow 2 (u.log2 + j) ≤ v) :
    Nat.pow 2 j * gap u ≤ gap v := by
  have hv : v ≠ 0 := Nat.ne_of_gt (Nat.lt_of_lt_of_le (Nat.two_pow_pos _) h)
  have hlog : u.log2 + j ≤ v.log2 := (Nat.le_log2 hv).2 h
  rw [gap, gap, Nat.pow_eq, Nat.pow_eq, Nat.pow_eq, ← Nat.pow_add]
  exact Nat.pow_le_pow_right Nat.two_pos (by omega)

/-- The gap is the same up to the next power of two. -/
theorem gap_eq_of_bounds {u v : Nat} (hlow : Nat.pow 2 u.log2 ≤ v) (hhigh : v < Nat.pow 2 (u.log2 + 1)) :
    gap v = gap u := by
  have hv : v ≠ 0 := Nat.ne_of_gt (Nat.lt_of_lt_of_le (Nat.two_pow_pos _) hlow)
  rw [gap, gap, (Nat.log2_eq_iff hv).2 ⟨hlow, hhigh⟩]

/-! ## Order -/

theorem nearest_mul {u q : Nat} (hq : 0 < q) (h : gap u ∣ u) : nearest (u * q) q = u := by
  rw [nearest_eq_of_mul_eq hq Nat.one_pos (Nat.mul_one (u * q)), nearest_one h]

/-- A multiple of the gap is not passed. -/
theorem nearest_le_of_dvd {p q b : Nat} (hq : 0 < q) (h : p ≤ b * q) (hd : gap (p / q) ∣ b) : nearest p q ≤ b := by
  obtain ⟨s, rfl⟩ := hd
  have hgap : 0 < q * gap (p / q) := Nat.mul_pos hq (gap_pos _)
  have hexact : halfEven (s * (q * gap (p / q))) (q * gap (p / q)) = s :=
    halfEven_eq hgap (by omega) (by omega) (.inr (by omega))
  have hle : p ≤ s * (q * gap (p / q)) := by
    rw [Nat.mul_left_comm, Nat.mul_comm s, Nat.mul_comm q]
    exact h
  have hround : halfEven p (q * gap (p / q)) ≤ s := by
    rw [← hexact]
    exact halfEven_mono _ hle
  rw [nearest, Nat.mul_comm (gap (p / q)) s]
  exact Nat.mul_le_mul_right _ hround

theorem nearest_mono_left {p p' q : Nat} (hq : 0 < q) (h : p ≤ p') : nearest p q ≤ nearest p' q := by
  have hdiv : p / q ≤ p' / q := Nat.div_le_div_right h
  by_cases hgap : gap (p / q) = gap (p' / q)
  · rw [nearest, nearest, hgap]
    exact Nat.mul_le_mul_right _ (halfEven_mono _ h)
  · -- With different gaps there is a power of two between the quotients.
    have hne : p' / q ≠ 0 := by
      intro hzero
      have hboth : p / q = 0 := Nat.eq_zero_of_le_zero (hzero ▸ hdiv)
      exact hgap (by rw [hboth, hzero])
    obtain ⟨k, hk⟩ : ∃ k, k = (p' / q).log2 := ⟨_, rfl⟩
    have hbelow : p / q < Nat.pow 2 k := by
      apply Nat.lt_of_not_le
      intro hle
      refine hgap (gap_eq_of_bounds (hk ▸ hle) ?_)
      exact Nat.lt_of_le_of_lt hdiv Nat.lt_log2_self
    have habove : Nat.pow 2 k ≤ nearest p' q := two_pow_le_nearest (hk ▸ Nat.log2_self_le hne)
    refine Nat.le_trans (nearest_le_of_dvd hq ?_ ?_) habove
    · exact Nat.le_of_lt ((Nat.div_lt_iff_lt_mul hq).1 hbelow)
    · exact Nat.dvd_trans (gap_dvd_gap (Nat.le_of_lt hbelow)) (gap_dvd_two_pow k)

/-- Rounding is monotone. -/
theorem nearest_mono {p q p' q' : Nat} (hq : 0 < q) (hq' : 0 < q') (h : p * q' ≤ p' * q) :
    nearest p q ≤ nearest p' q' := by
  have hleft : nearest p q = nearest (p * q') (q * q') :=
    nearest_eq_of_mul_eq hq (Nat.mul_pos hq hq') (by rw [Nat.mul_assoc, Nat.mul_comm q'])
  have hright : nearest p' q' = nearest (p' * q) (q * q') :=
    nearest_eq_of_mul_eq hq' (Nat.mul_pos hq hq') (by rw [Nat.mul_assoc])
  rw [hleft, hright]
  exact nearest_mono_left (Nat.mul_pos hq hq') h

variable {p q u : Nat}

theorem le_nearest_of_le (hq : 0 < q) (hu : gap u ∣ u) (h : u * q ≤ p) : u ≤ nearest p q := by
  have hmono := nearest_mono_left hq h
  rwa [nearest_mul hq hu] at hmono

/-! ## Distance -/

/-- Rounding moves a quotient by half a gap at most. -/
theorem nearest_error (p : Nat) (hq : 0 < q) :
    2 * (nearest p q * q) ≤ 2 * p + q * gap (p / q) ∧ 2 * p ≤ 2 * (nearest p q * q) + q * gap (p / q) := by
  have herror := halfEven_error (p := p) (Nat.mul_pos hq (gap_pos (p / q)))
  have hvalue : nearest p q * q = halfEven p (q * gap (p / q)) * (q * gap (p / q)) := by
    rw [nearest, Nat.mul_assoc, Nat.mul_comm (gap (p / q)) q]
  rwa [hvalue]

/-- A multiple of the gap no more than half a gap away is the outcome, if it is an even multiple or
less than half a gap away. -/
theorem nearest_eq_of_near (hq : 0 < q) (hd : gap (p / q) ∣ u) (hlow : 2 * (u * q) ≤ 2 * p + q * gap (p / q))
    (hhigh : 2 * p ≤ 2 * (u * q) + q * gap (p / q))
    (h : 2 * gap (p / q) ∣ u ∨ 2 * (u * q) ≠ 2 * p + q * gap (p / q) ∧ 2 * p ≠ 2 * (u * q) + q * gap (p / q)) :
    nearest p q = u := by
  obtain ⟨s, hs⟩ := hd
  have hgap := gap_pos (p / q)
  have hvalue : u * q = s * (q * gap (p / q)) := by
    rw [hs, Nat.mul_right_comm, Nat.mul_comm, Nat.mul_comm (gap (p / q)) q]
  rw [hvalue] at hlow hhigh h
  have heven : 2 * gap (p / q) ∣ u → s % 2 = 0 := by
    intro hdvd
    rw [hs, Nat.mul_comm 2] at hdvd
    exact Nat.mod_eq_zero_of_dvd (Nat.dvd_of_mul_dvd_mul_left hgap hdvd)
  rw [nearest, halfEven_eq (Nat.mul_pos hq hgap) hlow hhigh (h.imp_left heven), hs, Nat.mul_comm]

/-! ## What is rounded to a number -/

/-- The next power of two is no less than a gap away. -/
theorem add_gap_le (hd : gap u ∣ u) : u + gap u ≤ Nat.pow 2 (u.log2 + 1) := by
  have hlt : u < Nat.pow 2 (u.log2 + 1) := Nat.lt_log2_self
  have hpow : gap u ∣ Nat.pow 2 (u.log2 + 1) := Nat.pow_dvd_pow 2 (by omega)
  have hrest : gap u ∣ Nat.pow 2 (u.log2 + 1) - u := Nat.dvd_sub hpow hd
  have hle := Nat.le_of_dvd (Nat.sub_pos_of_lt hlt) hrest
  omega

/-- Less than half a gap above a number is rounded to it. -/
theorem nearest_of_above (hq : 0 < q) (hu : u ≠ 0) (hd : gap u ∣ u) (hle : u * q ≤ p)
    (hnear : 2 * p < 2 * (u * q) + q * gap u) : nearest p q = u := by
  have hlow : u ≤ p / q := (Nat.le_div_iff_mul_le hq).2 hle
  have hhigh : p / q < u + gap u := by
    rw [Nat.div_lt_iff_lt_mul hq, Nat.add_mul, Nat.mul_comm (gap u)]
    omega
  have hgap : gap (p / q) = gap u := by
    refine gap_eq_of_bounds (Nat.le_trans (Nat.log2_self_le hu) hlow) ?_
    exact Nat.lt_of_lt_of_le hhigh (add_gap_le hd)
  exact nearest_eq_of_near hq (hgap ▸ hd) (by omega) (by rw [hgap]; omega) (.inr (by rw [hgap]; omega))

/-- Less than half a gap below a number is rounded to it, unless the number is the first one with that gap. -/
theorem nearest_of_below (hq : 0 < q) (hd : gap u ∣ u) (hfirst : gap u = 1 ∨ Nat.pow 2 u.log2 + gap u ≤ u)
    (hle : p ≤ u * q) (hnear : 2 * (u * q) < 2 * p + q * gap u) : nearest p q = u := by
  have hlow : p / q ≤ u := Nat.div_le_of_le_mul (by rwa [Nat.mul_comm])
  have hgap : gap (p / q) = gap u := by
    rcases hfirst with hone | hfirst
    · exact Nat.le_antisymm (gap_le_gap hlow) (hone ▸ gap_pos _)
    · refine gap_eq_of_bounds ?_ (Nat.lt_of_le_of_lt hlow Nat.lt_log2_self)
      rw [Nat.le_div_iff_mul_le hq]
      have hmul : (Nat.pow 2 u.log2 + gap u) * q ≤ u * q := Nat.mul_le_mul_right q hfirst
      rw [Nat.add_mul, Nat.mul_comm (gap u)] at hmul
      omega
  exact nearest_eq_of_near hq (hgap ▸ hd) (by rw [hgap]; omega) (by omega) (.inr (by rw [hgap]; omega))

/-- Where the gaps grow, a number is a power of two. -/
theorem gap_eq_one_or_first (hd : gap u ∣ u) :
    gap u = 1 ∨ Nat.pow 2 u.log2 + gap u ≤ u ∨ u = Nat.pow 2 52 * gap u := by
  by_cases hlog : u.log2 ≤ 52
  · exact .inl (by rw [gap, Nat.sub_eq_zero_of_le hlog])
  · have hu : u ≠ 0 := by
      rintro rfl
      exact hlog (by decide)
    have hpow : Nat.pow 2 52 * gap u = Nat.pow 2 u.log2 := by
      have hexp : 52 + (u.log2 - 52) = u.log2 := by omega
      rw [gap, Nat.pow_eq, Nat.pow_eq, Nat.pow_eq, ← Nat.pow_add, hexp]
    have hle : Nat.pow 2 u.log2 ≤ u := Nat.log2_self_le hu
    rcases Nat.eq_or_lt_of_le hle with heq | hlt
    · exact .inr (.inr (hpow.trans heq).symm)
    · have hrest : gap u ∣ u - Nat.pow 2 u.log2 := Nat.dvd_sub hd (hpow ▸ Nat.dvd_mul_left _ _)
      have := Nat.le_of_dvd (Nat.sub_pos_of_lt hlt) hrest
      exact .inr (.inl (by omega))

/-- A number is less than `2 ^ 53` gaps. -/
theorem mul_lt_gaps (u : Nat) {b : Nat} (hb : 0 < b) : u * b < 9007199254740992 * (b * gap u) := by
  have hlt := div_gap_lt u
  have hpow : Nat.pow 2 53 = 9007199254740992 := by decide
  rw [hpow, Nat.div_lt_iff_lt_mul (gap_pos u)] at hlt
  rw [Nat.mul_left_comm, Nat.mul_comm u]
  exact Nat.mul_lt_mul_of_pos_left hlt hb

/-- Of the multiples of a step that goes into a number `10 ^ 16` times, one of the two around the number is rounded
to it. The step is `q / b`. -/
theorem nearest_neighbour {b : Nat} (hb : 0 < b) (hq : 0 < q) (hd : gap u ∣ u)
    (h : 10000000000000000 ≤ u * b / q) : nearest (u * b / q * q) b = u ∨ nearest ((u * b / q + 1) * q) b = u := by
  have hu : u ≠ 0 := by
    rintro rfl
    rw [Nat.zero_mul, Nat.zero_div] at h
    omega
  have hdiv : u * b / q * q + u * b % q = u * b := Nat.div_add_mod' _ _
  have hmod : u * b % q < q := Nat.mod_lt _ hq
  have hnext : (u * b / q + 1) * q = u * b / q * q + q := Nat.succ_mul _ _
  have hstep : 10000000000000000 * q ≤ u * b / q * q := Nat.mul_le_mul_right q h
  have habove (hnear : 2 * q < 2 * (u * b % q) + b * gap u) : nearest ((u * b / q + 1) * q) b = u :=
    nearest_of_above hb hu hd (by omega) (by omega)
  -- The step is less than a gap, so one of the two is less than half a gap away.
  have hother (hfirst : gap u = 1 ∨ Nat.pow 2 u.log2 + gap u ≤ u) :
      nearest (u * b / q * q) b = u ∨ nearest ((u * b / q + 1) * q) b = u := by
    have hgaps := mul_lt_gaps u hb
    by_cases hnear : 2 * (u * b) < 2 * (u * b / q * q) + b * gap u
    · exact .inl (nearest_of_below hb hd hfirst (by omega) hnear)
    · exact .inr (habove (by omega))
  rcases gap_eq_one_or_first hd with hone | hlater | hfirst
  · exact hother (.inl hone)
  · exact hother (.inr hlater)
  · -- At a power of two it is less than half a gap, which is enough above.
    have hgaps : u * b = 4503599627370496 * (b * gap u) := by
      have hpow : Nat.pow 2 52 = 4503599627370496 := by decide
      rw [hpow] at hfirst
      rw [Nat.mul_left_comm, ← hfirst, Nat.mul_comm]
    exact .inr (habove (by omega))

end Magnitude

end CellFormat
