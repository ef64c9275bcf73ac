import CellFormat.Number.Numeral
import CellFormat.Proofs.Decimal.Digits
/-!
# Digits before and after the decimal mark

A numeral is laid out from the digits of a whole number of its last decimal
place. `zeroFill_ofNat` cuts them: those before the mark are the digits of the
quotient by a power of ten, and the others, zeros in front among them, are the
last digits (`lastDigits`) and stand for the remainder.

Digits before the mark are put into groups (`exists_groups`), and zeros are left
out at the end of those behind it (`exists_layDecimals`).
-/

namespace CellFormat

namespace Text

/-! ## Filling up with zeros -/

theorem zeroFill_append_singleton (width : Nat) (t : Text) (c : Char) :
    zeroFill (width + 1) (t ++ [c]) = zeroFill width t ++ [c] := by
  simp only [zeroFill, List.leftpad, List.length_append, List.length_singleton, Nat.add_sub_add_right,
    List.append_assoc]

/-- A zero is the same as nothing where zeros are filled in. -/
theorem zeroFill_nil {width : Nat} (h : 0 < width) : zeroFill width [] = zeroFill width ['0'] := by
  obtain ⟨k, rfl⟩ := Nat.exists_eq_add_one_of_ne_zero (Nat.ne_of_gt h)
  simp [zeroFill, List.leftpad, List.replicate_succ']

theorem natOfDigits_zeroFill (width : Nat) (t : Text) :
    Decimal.natOfDigits (zeroFill width t) = Decimal.natOfDigits t :=
  Decimal.natOfDigits_zeros_append _ t

theorem isNumeral_ofNatFilled (width n : Nat) : IsNumeral (ofNatFilled width n) := by
  obtain ⟨hne, hdigits⟩ := isNumeral_ofNat n
  exact ⟨List.append_ne_nil_of_right_ne_nil _ hne, List.forall_mem_append.2 ⟨isDigit_of_mem_zeros, hdigits⟩⟩

theorem nat?_ofNatFilled (width n : Nat) : Decimal.nat? (ofNatFilled width n) = some n := by
  rw [Decimal.nat?_of_isNumeral (isNumeral_ofNatFilled width n), ofNatFilled, natOfDigits_zeroFill,
    Decimal.natOfDigits_ofNat]

theorem length_ofNatFilled {width n : Nat} (hpos : 0 < width) (h : n < Nat.pow 10 width) :
    (ofNatFilled width n).length = width := by
  rw [ofNatFilled, zeroFill, List.leftpad, List.length_append, List.length_replicate]
  exact Nat.sub_add_cancel ((Decimal.countDigits_le_iff hpos).2 h)

/-! ## The last digits -/

/-- The last `places` digits of a number, as many of them even if it has less. -/
def lastDigits : (places n : Nat) → Text
  | 0, _ => []
  | places + 1, n => lastDigits places (n / 10) ++ [Nat.digitChar (n % 10)]

@[simp] theorem length_lastDigits (places n : Nat) : (lastDigits places n).length = places := by
  induction places generalizing n with
  | zero => rfl
  | succ places ih => rw [lastDigits, List.length_append, ih, List.length_singleton]

theorem isDigit_of_mem_lastDigits (places n : Nat) : ∀ c ∈ lastDigits places n, c.isDigit := by
  have hdigit : ∀ d < 10, (Nat.digitChar d).isDigit := by decide
  induction places generalizing n with
  | zero => exact List.forall_mem_nil _
  | succ places ih =>
    rw [lastDigits]
    exact List.forall_mem_append.2 ⟨ih _, List.forall_mem_singleton.2 (hdigit _ (Nat.mod_lt _ (by decide)))⟩

theorem natOfDigits_lastDigits (places n : Nat) :
    Decimal.natOfDigits (lastDigits places n) = n % Nat.pow 10 places := by
  have hdigit : ∀ d < 10, Decimal.natOfDigits [Nat.digitChar d] = d := by decide
  induction places generalizing n with
  | zero => exact (Nat.mod_one n).symm
  | succ places ih =>
    rw [lastDigits, Decimal.natOfDigits_append, ih, hdigit _ (Nat.mod_lt _ (by decide))]
    calc n / 10 % Nat.pow 10 places * 10 + n % 10 = n % 10 + 10 * (n / 10 % Nat.pow 10 places) := by omega
      _ = n % (10 * Nat.pow 10 places) := Nat.mod_mul.symm
      _ = n % Nat.pow 10 (places + 1) := by rw [Nat.mul_comm]; rfl

/-- The digits before the last ones are those of the quotient, and there is at least one of them. -/
theorem zeroFill_ofNat (places n : Nat) :
    zeroFill (places + 1) (ofNat n) = ofNat (n / Nat.pow 10 places) ++ lastDigits places n := by
  induction places generalizing n with
  | zero =>
    have hpos : 1 - (ofNat n).length = 0 := Nat.sub_eq_zero_of_le (List.length_pos_iff.2 (isNumeral_ofNat n).1)
    have hdiv : n / Nat.pow 10 0 = n := Nat.div_one n
    rw [lastDigits, List.append_nil, hdiv, zeroFill, List.leftpad, hpos]
    rfl
  | succ places ih =>
    have hquot : n / Nat.pow 10 (places + 1) = n / 10 / Nat.pow 10 places := by
      rw [Nat.div_div_eq_div_mul, Nat.mul_comm]
      rfl
    have hlast : ofNat n = (if n < 10 then [] else ofNat (n / 10)) ++ [Nat.digitChar (n % 10)] := by
      unfold ofNat
      rw [Nat.toDigits_eq_if (by decide)]
      split
      · next hlt => rw [Nat.mod_eq_of_lt hlt, List.nil_append]
      · rfl
    have hfront : zeroFill (places + 1) (if n < 10 then [] else ofNat (n / 10)) =
        zeroFill (places + 1) (ofNat (n / 10)) := by
      split
      · next hlt =>
        rw [Nat.div_eq_of_lt hlt]
        exact zeroFill_nil (Nat.succ_pos places)
      · rfl
    rw [hquot, lastDigits, ← List.append_assoc, ← ih, hlast, zeroFill_append_singleton, hfront]

/-- There is a digit other than zero exactly in the digits of a number other than zero. -/
theorem any_zeroFill_ofNat (width n : Nat) : (zeroFill width (ofNat n)).any (· ≠ '0') = decide (n ≠ 0) := by
  by_cases hn : n = 0
  · subst hn
    simp [zeroFill, List.leftpad, ofNat, Nat.toDigits_zero]
  · rw [decide_eq_true hn, List.any_eq_true]
    obtain ⟨c, t, hw⟩ := List.exists_cons_of_ne_nil (isNumeral_ofNat n).1
    have hc : c ≠ '0' := by
      have hhead := head_ofNat_ne_zero hn
      rw [hw] at hhead
      simpa using hhead
    refine ⟨c, List.mem_append_right _ (hw ▸ List.mem_cons_self), decide_eq_true hc⟩

/-- Digits without the zeros in front, filled up again: only the number counts. -/
theorem zeroFill_dropWhile_ofNat {width : Nat} (h : 0 < width) (n : Nat) :
    zeroFill width ((ofNat n).dropWhile (· = '0')) = ofNatFilled width n := by
  by_cases hn : n = 0
  · subst hn
    exact zeroFill_nil h
  · have hhead := head_ofNat_ne_zero hn
    obtain ⟨c, t, hw⟩ := List.exists_cons_of_ne_nil (isNumeral_ofNat n).1
    rw [hw] at hhead
    have hc : c ≠ '0' := by simpa using hhead
    rw [ofNatFilled, hw, List.dropWhile_cons_of_neg (by simpa using hc)]

end Text

namespace Numeral

open Text

/-! ## Groups -/

/-- Groups of three digits each, but for the first one, which may be shorter. -/
def InThrees : List Text → Prop
  | [] => False
  | first :: rest => 0 < first.length ∧ first.length ≤ 3 ∧ ∀ g ∈ rest, g.length = 3

theorem length_flatten_mod_three {first : Text} {rest : List Text} (h : ∀ g ∈ rest, g.length = 3) :
    (first ++ rest.flatten).length % 3 = first.length % 3 := by
  induction rest with
  | nil => rw [List.flatten_nil, List.append_nil]
  | cons g rest ih =>
    obtain ⟨hg, hrest⟩ := List.forall_mem_cons.1 h
    have hmore := ih hrest
    rw [List.length_append] at hmore ⊢
    rw [List.flatten_cons, List.length_append]
    omega

/-- The digits are left in their order, with a mark between any two groups. -/
theorem exists_groups (mark : Char) {t : Text} (ht : t ≠ []) :
    ∃ groups, InThrees groups ∧ groups.flatten = t ∧ group mark t = List.intercalate [mark] groups := by
  induction t with
  | nil => exact absurd rfl ht
  | cons c t ih =>
    cases t with
    | nil => exact ⟨[[c]], ⟨Nat.one_pos, Nat.le_add_left 1 2, List.forall_mem_nil _⟩, rfl, rfl⟩
    | cons d t =>
      obtain ⟨groups, hthrees, hflat, hgroup⟩ := ih (List.cons_ne_nil d t)
      obtain _ | ⟨first, rest⟩ := groups
      · exact hthrees.elim
      obtain ⟨hpos, hle, hrest⟩ := hthrees
      have hmod : (d :: t).length % 3 = first.length % 3 := by
        rw [← hflat, List.flatten_cons, length_flatten_mod_three hrest]
      rw [group, hgroup]
      split
      · next hfull =>
        -- The first group is full, so the digit starts a new one.
        refine ⟨[c] :: first :: rest, ⟨Nat.one_pos, Nat.le_add_left 1 2, ?_⟩, ?_, ?_⟩
        · exact List.forall_mem_cons.2 ⟨by omega, hrest⟩
        · rw [List.flatten_cons, hflat]
          rfl
        · rw [List.intercalate_cons_cons]
          rfl
      · next hopen =>
        refine ⟨(c :: first) :: rest, ⟨Nat.succ_pos _, ?_, hrest⟩, ?_, ?_⟩
        · rw [List.length_cons]
          omega
        · rw [← hflat]
          rfl
        · cases rest with
          | nil => rw [List.intercalate_singleton, List.intercalate_singleton]
          | cons g rest => rw [List.intercalate_cons_cons, List.intercalate_cons_cons]; rfl

/-! ## Decimals -/

/-- As many zeros at the end are left out as there are, but no more than are optional. -/
theorem exists_layDecimals (n : Numeral) (digits : Text) :
    ∃ dropped ≤ n.optionalPlaces, n.layDecimals digits ++ List.replicate dropped '0' = digits ∧
      (dropped < n.optionalPlaces → (n.layDecimals digits).getLast? ≠ some '0') := by
  obtain ⟨t, ht⟩ : ∃ t, t = digits.drop (digits.length - n.optionalPlaces) := ⟨_, rfl⟩
  obtain ⟨dropped, hdropped⟩ := dropTrailing_zeros t
  have hsplit : digits.take (digits.length - n.optionalPlaces) ++ t = digits := ht ▸ List.take_append_drop ..
  have hlen : t.length ≤ n.optionalPlaces := by
    rw [ht, List.length_drop]
    omega
  have hlay : n.layDecimals digits = digits.take (digits.length - n.optionalPlaces) ++ dropTrailing (· = '0') t := by
    rw [layDecimals, ht]
  have hcount := congrArg List.length hdropped
  rw [List.length_append, List.length_replicate] at hcount
  refine ⟨dropped, by omega, ?_, fun hless => ?_⟩
  · rw [hlay, List.append_assoc, hdropped, hsplit]
  · intro hlast
    rw [hlay, List.getLast?_append, Option.or_eq_some_iff] at hlast
    rcases hlast with hlast | ⟨hnone, hlast⟩
    · exact absurd (getLast?_dropTrailing_ne _ _ _ hlast) (by decide)
    · -- All optional decimals are zeros, and there are less of them than there may be.
      rw [List.getLast?_eq_none_iff.1 hnone, List.length_nil] at hcount
      have hall : digits.length - n.optionalPlaces = 0 := by
        rw [ht, List.length_drop] at hcount
        omega
      rw [hall, List.take_zero] at hlast
      cases hlast

end Numeral

end CellFormat
