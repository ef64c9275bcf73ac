import CellFormat.Proofs.Decimal.Fewest
import CellFormat.Proofs.Json.Numerals
import CellFormat.Table.Display
/-!
# Numbers without a display format

The text of a finite number other than zero consists of proper parts
(`NumberParts.shown`), made from the significant digits of its shortest decimal.
So it reads back, and as the decimal has the fewest digits, so has the text.

Which parts are used hangs on the power of ten at the first digit of the
shortest decimal, and rounding to that decimal can carry into the next power.
It does so exactly for the numbers that are no less than the one that this power
reads as, so the limits can be compared with the number itself
(`millionth_le_iff`, `sextillion_le_iff`).
-/

namespace CellFormat

open Decimal Magnitude

namespace Json.NumberParts

open NumberLayout

variable {negative : Bool} {digits : Text} {places power : Int}

/-! ## Parts without a needless point -/

/-- Digits with a point `places` digits after their start, or zeros up to that place and no point. -/
def spread (negative : Bool) (digits : Text) (places : Int) : NumberParts :=
  if places.toNat < digits.length then pointed negative digits places
  else ⟨negative, digits ++ List.replicate (places.toNat - digits.length) '0', [], none⟩

theorem write_spread (hd : digits ≠ []) :
    (spread negative digits places).write = (if negative then ['-'] else []) ++ display.writeOut digits places := by
  unfold spread
  split
  · next hlt =>
    rw [write_pointed hd, writeOut, writeOut, if_pos hlt, if_pos hlt]
  · next hle =>
    have hpos : ¬ places ≤ 0 := by
      have := List.length_pos_iff.2 hd
      omega
    rw [writeOut, if_neg hpos, if_neg hle]
    simp [NumberParts.write, writeFraction, display]

theorem proper_spread (hd : digits.IsNumeral) (h0 : digits.head? ≠ some '0') :
    (spread negative digits places).Proper := by
  unfold spread
  split
  · exact proper_pointed hd h0
  · exact ⟨isWhole_append hd h0 Text.isDigit_of_mem_zeros, List.forall_mem_nil _, fun p hp => by cases hp⟩

theorem toBinary64_spread (hd : digits ≠ []) :
    (spread negative digits places).toBinary64 =
      Decimal.toBinary64 negative ⟨natOfDigits digits, places - digits.length⟩ := by
  unfold spread
  split
  · exact toBinary64_pointed
  · next hle =>
    simp only [toBinary64, NumberParts.digits, exponent, List.append_nil, natOfDigits_append_zeros, toBinary64_shift,
      List.length_nil]
    have := List.length_pos_iff.2 hd
    congr 2
    omega

theorem digits_pointed_of_lt (h : places.toNat < digits.length) :
    (pointed negative digits places).digits = natOfDigits digits := by
  unfold pointed
  split
  · exact natOfDigits_zeros_append ((-places).toNat + 1) digits
  · rw [NumberParts.digits, List.take_append_drop]

/-- At most zeros are added behind the digits. -/
theorem exists_digits_spread : ∃ k, (spread negative digits places).digits = natOfDigits digits * Nat.pow 10 k := by
  unfold spread
  split
  · next hlt => exact ⟨0, (digits_pointed_of_lt hlt).trans (Nat.mul_one _).symm⟩
  · refine ⟨places.toNat - digits.length, ?_⟩
    rw [← natOfDigits_append_zeros, NumberParts.digits, List.append_nil]

theorem getLast?_drop_ne {c : Char} (k : Nat) (h : digits.getLast? ≠ some c) : (digits.drop k).getLast? ≠ some c := by
  rw [List.getLast?_drop]
  split
  · exact fun hnone => by cases hnone
  · exact h

theorem getLast?_fraction_spread (hd : digits ≠ []) (hlast : digits.getLast? ≠ some '0') :
    (spread negative digits places).fraction.getLast? ≠ some '0' := by
  unfold spread pointed
  split
  · next hlt =>
    split
    · rwa [List.getLast?_append_of_ne_nil _ hd]
    · exact getLast?_drop_ne _ hlast
  · exact fun hnone => by cases hnone

theorem power_spread : (spread negative digits places).power = none := by
  unfold spread
  split
  · exact power_pointed
  · rfl

/-! ## The parts that are shown -/

/-- The power of ten at the first digit of a decimal. -/
def firstPower (d : Decimal) : Int := d.exponent + countDigits d.digits - 1

/-- The parts of a decimal as a cell shows it. -/
def shown (negative : Bool) (d : Decimal) : NumberParts :=
  if -6 ≤ firstPower d ∧ firstPower d < 21 then spread negative (significant d.digits) (firstPower d + 1)
  else powered negative (significant d.digits) (firstPower d)

variable {d : Decimal} (hd : d.digits ≠ 0)
include hd

theorem write_shown : (shown negative d).write = (if negative then ['-'] else []) ++ display.writeDecimal d := by
  have hwrite : display.writeDecimal d =
      if -6 ≤ firstPower d ∧ firstPower d < 21 then display.writeOut (significant d.digits) (firstPower d + 1)
      else withPower (significant d.digits) (firstPower d) := rfl
  rw [shown, hwrite]
  split
  · exact write_spread (significant_ne_nil hd)
  · exact write_powered _

theorem proper_shown : (shown negative d).Proper := by
  have hsig := isNumeral_significant hd
  have hzero := head_significant_ne_zero hd
  unfold shown
  split
  · exact proper_spread hsig hzero
  · exact proper_powered hsig hzero

theorem toBinary64_shown : (shown negative d).toBinary64 = d.toBinary64 negative := by
  have hplace : firstPower d + 1 = d.exponent + countDigits d.digits := Int.sub_add_cancel _ _
  rw [← toBinary64_significant, ← hplace]
  unfold shown
  split
  · exact toBinary64_spread (significant_ne_nil hd)
  · exact toBinary64_powered (significant_ne_nil hd)

omit hd in
/-- The digits shown are the significant ones of the decimal. -/
theorem significant_shown : significant (shown negative d).digits = significant d.digits := by
  obtain ⟨k, hvalue, -⟩ := exists_significant_mul_pow d.digits
  have hshown : ∃ j, (shown negative d).digits = natOfDigits (significant d.digits) * Nat.pow 10 j := by
    unfold shown
    split
    · exact exists_digits_spread
    · refine ⟨0, ?_⟩
      rw [NumberParts.digits, powered, List.take_append_drop]
      exact (Nat.mul_one _).symm
  obtain ⟨j, hj⟩ := hshown
  rw [hj, significant_mul_pow]
  conv => rhs; rw [hvalue, significant_mul_pow]

theorem getLast?_fraction_shown : (shown negative d).fraction.getLast? ≠ some '0' := by
  have hsig := significant_ne_nil hd
  have hlast : (significant d.digits).getLast? ≠ some '0' := by
    intro hzero
    exact absurd (Text.getLast?_dropTrailing_ne _ _ '0' hzero) (by decide)
  unfold shown
  split
  · exact getLast?_fraction_spread hsig hlast
  · exact getLast?_drop_ne 1 hlast

omit hd in
/-- There is a power of ten outside of the two limits, and it is the one at the first digit. -/
theorem power_shown : (shown negative d).power =
    if -6 ≤ firstPower d ∧ firstPower d < 21 then none
    else some ⟨firstPower d < 0, Text.ofNat (firstPower d).natAbs⟩ := by
  unfold shown
  split
  · exact power_spread
  · rfl

omit hd in
/-- The sign of the power of ten says on which side of the limits the decimal is. -/
theorem power_shown_iff (negative : Bool) (d : Decimal) :
    ((∃ k, 21 ≤ k ∧ (shown negative d).power = some ⟨false, Text.ofNat k⟩) ↔ 21 ≤ firstPower d) ∧
    ((∃ k, 7 ≤ k ∧ (shown negative d).power = some ⟨true, Text.ofNat k⟩) ↔ firstPower d < -6) ∧
    ((shown negative d).power = none ↔ -6 ≤ firstPower d ∧ firstPower d < 21) := by
  rw [power_shown]
  by_cases hout : -6 ≤ firstPower d ∧ firstPower d < 21
  · rw [if_pos hout]
    exact ⟨iff_of_false (by simp) (by omega), iff_of_false (by simp) (by omega), iff_of_true rfl hout⟩
  · rw [if_neg hout]
    refine ⟨?_, ?_, iff_of_false (by simp) hout⟩
    · constructor
      · rintro ⟨k, -, hpower⟩
        have hpos : decide (firstPower d < 0) = false := congrArg Json.Power.negative (Option.some.inj hpower)
        rw [decide_eq_false_iff_not] at hpos
        omega
      · intro hp
        exact ⟨(firstPower d).natAbs, by omega, by rw [decide_eq_false (by omega)]⟩
    · constructor
      · rintro ⟨k, -, hpower⟩
        have hneg : decide (firstPower d < 0) = true := congrArg Json.Power.negative (Option.some.inj hpower)
        rw [decide_eq_true_eq] at hneg
        omega
      · intro hp
        exact ⟨(firstPower d).natAbs, by omega, by rw [decide_eq_true (by omega)]⟩

/-- In front of a power of ten stands one digit, and it is not zero. -/
theorem whole_shown_of_power (hpower : (shown negative d).power ≠ none) :
    (shown negative d).whole.length = 1 ∧ (shown negative d).whole ≠ ['0'] := by
  rw [power_shown] at hpower
  unfold shown
  split at hpower
  · exact absurd rfl hpower
  · next hlimits =>
    have hzero := head_significant_ne_zero hd
    obtain ⟨c, t, hdigits⟩ := List.exists_cons_of_ne_nil (significant_ne_nil hd)
    rw [hdigits] at hzero
    rw [if_neg hlimits, powered, hdigits]
    refine ⟨rfl, fun h => hzero ?_⟩
    rw [List.head?_cons, (List.cons.inj h).1]

omit hd in
theorem negative_shown : (shown negative d).negative = negative := by
  unfold shown spread pointed
  repeat' split
  all_goals rfl

end Json.NumberParts

namespace Display

open Json.NumberParts

variable {negative : Bool} {m : Magnitude} (hm : m.units ≠ 0)

/-! ## The limits -/

/-- The number of units in the binary64 number nearest to a millionth. -/
def millionth : Nat := nearest one 1000000

/-- The number of units in 10^21, which is a binary64 number. -/
def sextillion : Nat := Nat.pow 10 21 * one

include hm in
/-- A limit at a power of ten can be compared with the number itself. -/
theorem units_le_iff {b : Magnitude} {power : Int} (hb : readsAs ⟨1, power⟩ b = true)
    (hself : ⟨1, power⟩ ≤ shortest .up b) : b.units ≤ m.units ↔ power ≤ firstPower (shortest .up m) := by
  rw [← pow_le_shortest_iff hb hself, pow_le_iff (digits_shortest_ne_zero hm), firstPower]

include hm in
theorem millionth_le_iff : millionth ≤ m.units ↔ -6 ≤ firstPower (shortest .up m) :=
  units_le_iff hm (b := ⟨millionth, by decide +kernel⟩) (by decide +kernel) (by decide +kernel)

include hm in
theorem sextillion_le_iff : sextillion ≤ m.units ↔ 21 ≤ firstPower (shortest .up m) :=
  units_le_iff hm (b := ⟨sextillion, by decide +kernel⟩) (by decide +kernel) (by decide +kernel)

/-! ## What is shown -/

theorem plain_zero (negative : Bool) : plain (.finite negative .zero) = ['0'] := by
  cases negative <;> rfl

include hm in
theorem plain_eq_write : plain (.finite negative m) = (shown negative (shortest .up m)).write := by
  rw [write_shown (digits_shortest_ne_zero hm), plain, NumberLayout.write, if_neg hm]
  rfl

include hm in
theorem ofNumeral?_plain : Binary64.ofNumeral? (plain (.finite negative m)) = some (.finite negative m) := by
  have hd : (shortest .up m).digits ≠ 0 := digits_shortest_ne_zero hm
  rw [plain_eq_write hm, Json.ofNumeral?_write (proper_shown hd), toBinary64_shown hd, toBinary64_shortest]

include hm in
/-- No other finite number looks the same. -/
theorem eq_of_plain_eq {v : Binary64} (hv : v.isFinite = true) (h : plain v = plain (.finite negative m)) :
    v = .finite negative m := by
  cases v with
  | nan => cases hv
  | infinite => cases hv
  | finite negative' m' =>
    have hread : Binary64.ofNumeral? (plain (.finite negative m)) = some (.finite negative m) := ofNumeral?_plain hm
    rw [← h] at hread
    by_cases hm' : m'.units = 0
    · have hzero : m' = .zero := eq_of_units_eq hm'
      rw [hzero, plain_zero] at hread
      have hvalue : Binary64.ofNumeral? ['0'] = some (.finite false .zero) := by decide +kernel
      rw [hvalue, Option.some.injEq, Binary64.finite.injEq] at hread
      exact absurd (congrArg Magnitude.units hread.2.symm) hm
    · rw [ofNumeral?_plain hm', Option.some.injEq] at hread
      exact hread

/-- A finite number other than zero is shown as a numeral that reads back and has no more significant digits than
any decimal that does. It has a power of ten from 10^21 on and below a millionth, and no zeros
behind a point. No other finite number is shown as it is; both zeros are shown as `0`. -/
theorem plain_of_finite (negative : Bool) (m : Magnitude) (hm : m.units ≠ 0) :
    (∃ n : Json.NumberParts, n.Proper ∧ plain (.finite negative m) = n.write ∧ n.negative = negative ∧
      (∀ d : Decimal, d.toBinary64 negative = .finite negative m →
        (significant n.digits).length ≤ (significant d.digits).length) ∧
      ((∃ k, 21 ≤ k ∧ n.power = some ⟨false, Text.ofNat k⟩) ↔ sextillion ≤ m.units) ∧
      ((∃ k, 7 ≤ k ∧ n.power = some ⟨true, Text.ofNat k⟩) ↔ m.units < millionth) ∧
      (n.power = none ↔ millionth ≤ m.units ∧ m.units < sextillion) ∧
      (n.power ≠ none → n.whole.length = 1 ∧ n.whole ≠ ['0']) ∧
      n.fraction.getLast? ≠ some '0') ∧
    Binary64.ofNumeral? (plain (.finite negative m)) = some (.finite negative m) ∧
    (∀ v : Binary64, v.isFinite = true → plain v = plain (.finite negative m) → v = .finite negative m) ∧
    ∀ negative, plain (.finite negative .zero) = ['0'] := by
  have hd : (shortest .up m).digits ≠ 0 := digits_shortest_ne_zero hm
  obtain ⟨hlarge, hsmall, hout⟩ := power_shown_iff negative (shortest .up m)
  rw [← sextillion_le_iff hm] at hlarge
  rw [← Int.not_le, ← millionth_le_iff hm, Nat.not_le] at hsmall
  rw [← Int.not_le, ← millionth_le_iff hm, ← sextillion_le_iff hm, Nat.not_le] at hout
  refine ⟨⟨shown negative (shortest .up m), proper_shown hd, plain_eq_write hm, negative_shown, fun d hread => ?_,
    hlarge, hsmall, hout, whole_shown_of_power hd, getLast?_fraction_shown hd⟩, ofNumeral?_plain hm,
    fun v hv => eq_of_plain_eq hm hv, plain_zero⟩
  rw [significant_shown]
  exact length_significant_shortest_le hm .up (readsAs_iff.2 (toBinary64_eq_finite_iff.1 hread))

/-- The number nearest to 10^23 is less than that, and shown as it. -/
theorem plain_of_finite_carried :
    ∃ m : Magnitude, m.units ≠ 0 ∧ m.units < Nat.pow 10 23 * one ∧ plain (.finite true m) = "-1e+23".toList ∧
      Binary64.ofNumeral? "-1e+23".toList = some (.finite true m) ∧
      ∀ v : Binary64, v.isFinite = true → plain v = "-1e+23".toList → v = .finite true m := by
  obtain ⟨m, hm, hless, hplain⟩ : ∃ m : Magnitude, m.units ≠ 0 ∧ m.units < Nat.pow 10 23 * one ∧
      plain (.finite true m) = "-1e+23".toList :=
    ⟨⟨nearest (Nat.pow 10 23 * one) 1, by decide +kernel⟩, by decide +kernel, by decide +kernel, by decide +kernel⟩
  obtain ⟨-, hread, hunique, -⟩ := plain_of_finite true m hm
  rw [hplain] at hread hunique
  exact ⟨m, hm, hless, hplain, hread, hunique⟩

end Display

end CellFormat
