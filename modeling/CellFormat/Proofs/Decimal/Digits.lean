import CellFormat.Proofs.Decimal.Value
import Mathlib.Data.List.Basic
import Mathlib.Data.List.TakeWhile
/-!
# Digits as a text and as a number

`natOfDigits` reads what `Text.ofNat` writes. Zeros behind the digits are powers
of ten, so the digits that are left without them (`significant`) have the value
of the number over such a power (`exists_significant_mul_pow`), and a decimal
reads like its significant digits at their place (`toBinary64_significant`).
-/

namespace CellFormat

namespace Text

/-- One decimal digit or more, and nothing else. -/
def IsNumeral (t : Text) : Prop := t ≠ [] ∧ ∀ c ∈ t, c.isDigit

theorem IsNumeral.append {t u : Text} (ht : IsNumeral t) (hu : ∀ c ∈ u, c.isDigit) : IsNumeral (t ++ u) :=
  ⟨List.append_ne_nil_of_left_ne_nil ht.1 u, List.forall_mem_append.2 ⟨ht.2, hu⟩⟩

theorem not_mem_of_isDigit {t : Text} {c : Char} (ht : ∀ d ∈ t, d.isDigit) (hc : c.isDigit = false) : c ∉ t := by
  intro hmem
  rw [ht c hmem] at hc
  cases hc

theorem isDigit_of_mem_zeros {n : Nat} : ∀ c ∈ List.replicate n '0', c.isDigit := by
  intro c hc
  rw [List.eq_of_mem_replicate hc]
  decide

theorem isNumeral_ofNat (n : Nat) : IsNumeral (ofNat n) :=
  ⟨Nat.toDigits_ne_nil, fun _ hc => Nat.isDigit_of_mem_toDigits (by decide) (by decide) hc⟩

theorem head_ofNat_ne_zero {n : Nat} (hn : n ≠ 0) : (ofNat n).head? ≠ some '0' := by
  induction n using Nat.strongRecOn with
  | ind n ih =>
    unfold ofNat at ih ⊢
    rw [Nat.toDigits_eq_if (by decide)]
    split
    · next hlt =>
      have hdigit : ∀ d < 10, d ≠ 0 → Nat.digitChar d ≠ '0' := by decide
      simpa using hdigit n hlt hn
    · next hle =>
      rw [List.head?_append_of_ne_nil _ Nat.toDigits_ne_nil]
      exact ih (n / 10) (by omega) (by omega)

/-- The text is the one without its trailing characters and these characters. -/
theorem dropTrailing_append (p : Char → Bool) (t : Text) :
    dropTrailing p t ++ (t.reverse.takeWhile p).reverse = t := by
  rw [dropTrailing, ← List.reverse_append, List.takeWhile_append_dropWhile, List.reverse_reverse]

/-- Zeros that are left out at the end can be put back. -/
theorem dropTrailing_zeros (t : Text) : ∃ k, dropTrailing (· = '0') t ++ List.replicate k '0' = t := by
  have hzeros : ∀ c ∈ (t.reverse.takeWhile (· = '0')).reverse, c = '0' := by
    intro c hc
    simpa using List.mem_takeWhile_imp (List.mem_reverse.1 hc)
  have happend := dropTrailing_append (· = '0') t
  rw [List.eq_replicate_of_mem hzeros] at happend
  exact ⟨_, happend⟩

theorem getLast?_dropTrailing_ne (p : Char → Bool) (t : Text) : ∀ c ∈ (dropTrailing p t).getLast?, p c = false := by
  intro c hc
  rw [dropTrailing, List.getLast?_reverse] at hc
  have hhead := List.head?_dropWhile_not p t.reverse
  rw [Option.mem_def.1 hc] at hhead
  exact hhead

end Text

namespace Decimal

theorem nat?_of_isNumeral {t : Text} (h : t.IsNumeral) : nat? t = some (natOfDigits t) :=
  if_pos ⟨h.1, List.all_eq_true.2 h.2⟩

/-- A numeral without a sign is an integer too. -/
theorem int?_of_isNumeral {t : Text} (h : t.IsNumeral) : int? t = some (natOfDigits t : Int) := by
  unfold int?
  split
  · exact absurd List.mem_cons_self (Text.not_mem_of_isDigit h.2 (by decide))
  · exact absurd List.mem_cons_self (Text.not_mem_of_isDigit h.2 (by decide))
  · rw [nat?_of_isNumeral h]
    rfl

theorem natOfDigits_append (t u : Text) :
    natOfDigits (t ++ u) = natOfDigits t * Nat.pow 10 u.length + natOfDigits u := by
  have hfold : ∀ v : Text, natOfDigits v = Nat.ofDigitChars 10 v 0 := fun _ => rfl
  rw [hfold, hfold, hfold, Nat.ofDigitChars_append, Nat.ofDigitChars_eq_ofDigitChars_zero, Nat.mul_comm]
  rfl

theorem natOfDigits_ofNat (n : Nat) : natOfDigits (Text.ofNat n) = n := Nat.ofDigitChars_ten_toDigits

theorem natOfDigits_zeros (n : Nat) : natOfDigits (List.replicate n '0') = 0 := by
  induction n with
  | zero => rfl
  | succ n ih => exact ih

theorem natOfDigits_append_zeros (t : Text) (n : Nat) :
    natOfDigits (t ++ List.replicate n '0') = natOfDigits t * Nat.pow 10 n := by
  rw [natOfDigits_append, natOfDigits_zeros, List.length_replicate, Nat.add_zero]

theorem natOfDigits_zeros_append (n : Nat) (t : Text) :
    natOfDigits (List.replicate n '0' ++ t) = natOfDigits t := by
  rw [natOfDigits_append, natOfDigits_zeros, Nat.zero_mul, Nat.zero_add]

/-- The digits of a number without the zeros behind them. -/
def significant (n : Nat) : Text := Text.dropTrailing (· = '0') (Text.ofNat n)

theorem exists_significant_append (n : Nat) : ∃ k, Text.ofNat n = significant n ++ List.replicate k '0' := by
  obtain ⟨k, hk⟩ := Text.dropTrailing_zeros (Text.ofNat n)
  exact ⟨k, hk.symm⟩

theorem significant_ne_nil {n : Nat} (hn : n ≠ 0) : significant n ≠ [] := by
  obtain ⟨k, hk⟩ := exists_significant_append n
  intro hnil
  rw [hnil, List.nil_append] at hk
  have hvalue := natOfDigits_ofNat n
  rw [hk, natOfDigits_zeros] at hvalue
  exact hn hvalue.symm

theorem isNumeral_significant {n : Nat} (hn : n ≠ 0) : Text.IsNumeral (significant n) := by
  obtain ⟨k, hk⟩ := exists_significant_append n
  refine ⟨significant_ne_nil hn, fun c hc => (Text.isNumeral_ofNat n).2 c ?_⟩
  rw [hk]
  exact List.mem_append_left _ hc

theorem head_significant_ne_zero {n : Nat} (hn : n ≠ 0) : (significant n).head? ≠ some '0' := by
  obtain ⟨k, hk⟩ := exists_significant_append n
  have hhead := Text.head_ofNat_ne_zero hn
  rwa [hk, List.head?_append_of_ne_nil _ (significant_ne_nil hn)] at hhead

/-- The zeros that are left out stand for a power of ten. -/
theorem exists_significant_mul_pow (n : Nat) :
    ∃ k, n = natOfDigits (significant n) * Nat.pow 10 k ∧ countDigits n = (significant n).length + k := by
  obtain ⟨k, hk⟩ := exists_significant_append n
  refine ⟨k, ?_, ?_⟩
  · rw [← natOfDigits_append_zeros, ← hk, natOfDigits_ofNat]
  · rw [countDigits, ← Text.ofNat, hk, List.length_append, List.length_replicate]

theorem natOfDigits_significant_lt (n : Nat) : natOfDigits (significant n) < Nat.pow 10 (significant n).length := by
  obtain ⟨k, hvalue, hcount⟩ := exists_significant_mul_pow n
  have hlt : natOfDigits (significant n) * 10 ^ k < 10 ^ (significant n).length * 10 ^ k := by
    rw [← Nat.pow_add, ← hcount]
    exact hvalue ▸ lt_pow_countDigits n
  exact Nat.lt_of_mul_lt_mul_right hlt

/-- A decimal reads like its significant digits at their place. -/
theorem toBinary64_significant (negative : Bool) (d : Decimal) :
    toBinary64 negative ⟨natOfDigits (significant d.digits), d.exponent + countDigits d.digits - (significant d.digits).length⟩ =
      d.toBinary64 negative := by
  obtain ⟨k, hvalue, hcount⟩ := exists_significant_mul_pow d.digits
  have hexponent : d.exponent + countDigits d.digits - (significant d.digits).length = d.exponent + k := by omega
  rw [hexponent, ← toBinary64_shift, ← hvalue]

/-- Zeros behind a number are not significant. -/
theorem significant_mul_pow (n k : Nat) : significant (n * Nat.pow 10 k) = significant n := by
  induction k with
  | zero => exact congrArg significant (Nat.mul_one n)
  | succ k ih =>
    rw [Nat.pow_eq] at ih ⊢
    rw [← ih, Nat.pow_succ, ← Nat.mul_assoc]
    rcases Nat.eq_zero_or_pos (n * 10 ^ k) with hzero | hpos
    · rw [hzero]
    · have hdigits : Text.ofNat (n * 10 ^ k * 10) = Text.ofNat (n * 10 ^ k) ++ ['0'] := by
        rw [Text.ofNat, Nat.toDigits_eq_if (by decide), if_neg (by omega), Nat.mul_div_cancel _ (by decide),
          Nat.mul_mod_left]
        rfl
      simp [significant, hdigits, Text.dropTrailing]

/-- A power of ten has one significant digit. -/
theorem significant_pow (k : Nat) : significant (Nat.pow 10 k) = ['1'] := by
  rw [← Nat.one_mul (Nat.pow 10 k), significant_mul_pow]
  decide

end Decimal

end CellFormat
