import CellFormat.Proofs.Number.Shown
/-!
# Numbers that are written as no number

The digits of a numeral are taken from the product of the number with a power of
ten. A finite number with a finite product is written as a number. But the
product of a finite number may be infinite, and the power of ten may be, which
makes it no number at all for zero. Then the letters of `inf` or `NaN` are laid
out like digits, and one of them is left in the text.

`isNumber_iff_finite_product` says that the text is a number exactly if the
product is finite.
-/

namespace CellFormat

/-- Digits and group marks, a digit first, and perhaps a decimal mark and digits behind it. -/
def IsNumber (locale : NumberLocale) (t : Text) : Prop :=
  ∃ integer decimals, t = integer ++ decimals ∧
    (∃ c, integer.head? = some c ∧ c.isDigit) ∧ (∀ c ∈ integer, c.isDigit ∨ c = locale.groupMark) ∧
      (decimals = [] ∨ ∃ digits, decimals = locale.decimalMark :: digits ∧ ∀ c ∈ digits, c.isDigit)

namespace NumberLocale

/-- The letters of what is no number are no part of how numbers are written. -/
theorem letters_of_mem_all : ∀ l ∈ all, ∀ c ∈ ['f', 'N'],
    c ∉ l.currency ∧ c ≠ l.groupMark ∧ c ≠ l.decimalMark := by
  simp only [List.mem_cons, List.not_mem_nil, or_false, forall_eq_or_imp, forall_eq]
  decide

end NumberLocale

theorem IsNumber.mem {locale : NumberLocale} {t : Text} (h : IsNumber locale t) {c : Char} (hc : c ∈ t) :
    c.isDigit ∨ c = locale.groupMark ∨ c = locale.decimalMark := by
  obtain ⟨integer, decimals, rfl, -, hinteger, hdecimals⟩ := h
  rcases List.mem_append.1 hc with hc | hc
  · exact (hinteger c hc).imp_right .inl
  · rcases hdecimals with rfl | ⟨digits, rfl, hdigits⟩
    · cases hc
    · rcases List.mem_cons.1 hc with rfl | hc
      · exact .inr (.inr rfl)
      · exact .inl (hdigits c hc)

/-- There is no letter in a number. -/
theorem IsNumber.not_mem {locale : NumberLocale} (hl : locale ∈ NumberLocale.all) {t : Text} (h : IsNumber locale t)
    {c : Char} (hc : c ∈ ['f', 'N']) : c ∉ t := by
  obtain ⟨-, hgroup, hdecimal⟩ := NumberLocale.letters_of_mem_all locale hl c hc
  have hletter : c.isDigit = false := by
    revert hc
    exact (by simp : ∀ c ∈ ['f', 'N'], Char.isDigit c = false) c
  intro hmem
  rcases h.mem hmem with hdigit | hmark | hmark
  · rw [hletter] at hdigit
    cases hdigit
  · exact hgroup hmark
  · exact hdecimal hmark

namespace Numeral

open Text

variable {n : Numeral} {locale : NumberLocale}

theorem Shows.isNumber_body {negative : Bool} {r : Nat} {s : Shown} (h : Shows n negative r s)
    (locale : NumberLocale) : IsNumber locale (s.body locale) := by
  refine ⟨_, _, rfl, h.head_intercalate _, fun c hc => ?_, ?_⟩
  · exact (mem_intercalate c hc).imp_left (h.isDigit_of_mem_groups c)
  · split
    · exact .inl rfl
    · exact .inr ⟨_, rfl, h.isDigit_of_mem_decimals⟩

/-! ## Letters that are laid out like digits -/

theorem mem_intercalate_of_mem_flatten {c mark : Char} {groups : List Text} (h : c ∈ groups.flatten) :
    c ∈ List.intercalate [mark] groups := by
  induction groups with
  | nil => exact h
  | cons g groups ih =>
    rw [List.flatten_cons, List.mem_append] at h
    cases groups with
    | nil =>
      rw [List.intercalate_singleton]
      exact h.resolve_right List.not_mem_nil
    | cons g' groups =>
      rw [List.intercalate_cons_cons, List.append_assoc, List.mem_append, List.mem_append]
      exact h.imp_right fun hmem => .inr (ih hmem)

section
variable {c : Char} (hc : c ≠ '0') {digits : Text} (h : c ∈ digits)
include hc h

/-- What is no zero is not lost before the decimal mark … -/
theorem mem_layInteger (n : Numeral) (locale : NumberLocale) : c ∈ n.layInteger locale digits := by
  have hkept : c ∈ digits.dropWhile (· = '0') := by
    rw [← List.takeWhile_append_dropWhile (p := (· = '0')) (l := digits), List.mem_append] at h
    refine h.resolve_left fun hzero => hc ?_
    simpa using List.mem_takeWhile_imp hzero
  have hfilled : c ∈ zeroFill (max 1 n.leastDigits) (digits.dropWhile (· = '0')) := List.mem_append_right _ hkept
  simp only [layInteger]
  split
  · obtain ⟨groups, -, hflat, hgroup⟩ := exists_groups locale.groupMark (List.ne_nil_of_mem hfilled)
    rw [hgroup]
    exact mem_intercalate_of_mem_flatten (hflat ▸ hfilled)
  · exact hfilled

/-- … nor behind it. -/
theorem mem_layDecimals (n : Numeral) : c ∈ n.layDecimals digits := by
  obtain ⟨dropped, -, hlay, -⟩ := n.exists_layDecimals digits
  rw [← hlay, List.mem_append] at h
  exact h.resolve_right fun hzero => hc (List.eq_of_mem_replicate hzero)

end

/-- A product that is not finite leaves one of its letters in the text. -/
theorem exists_letter_mem_write {negative : Bool} {u : Magnitude} (h : n.scaled? (.finite negative u) = none)
    (locale : NumberLocale) : ∃ c ∈ ['f', 'N'], c ∈ n.write locale (.finite negative u) := by
  obtain ⟨c, hletter, hc⟩ : ∃ c ∈ ['f', 'N'], c ∈ n.scaledDigits (.finite negative u) := by
    rw [scaled?] at h
    rw [scaledDigits]
    split at h
    · cases h
    · next product hproduct =>
      generalize (Binary64.finite negative u).abs.mul (Binary64.tenPow n.places) = product at hproduct
      cases product with
      | nan => exact ⟨'N', by decide, List.mem_append_right _ (by decide : 'N' ∈ "NaN".toList)⟩
      | infinite _ => exact ⟨'f', by decide, List.mem_append_right _ (by decide : 'f' ∈ "inf".toList)⟩
      | finite _ m => exact absurd rfl (hproduct _ m)
  have hzero : c ≠ '0' := (by simp : ∀ c ∈ ['f', 'N'], c ≠ '0') c hletter
  refine ⟨c, hletter, ?_⟩
  rw [← List.take_append_drop ((n.scaledDigits (.finite negative u)).length - n.places)
    (n.scaledDigits (.finite negative u)), List.mem_append] at hc
  rw [write, writeFinite]
  rcases hc with hc | hc
  · exact List.mem_append_left _ (List.mem_append_right _ (mem_layInteger hzero hc n locale))
  · have hmem := mem_layDecimals hzero hc n
    refine List.mem_append_right _ ?_
    rw [if_neg (List.ne_nil_of_mem hmem)]
    exact List.mem_cons_of_mem _ hmem

/-- No letter stands in front of a number. -/
theorem not_mem_currencySign (hl : locale ∈ NumberLocale.all) (pattern : Text) {c : Char} (hc : c ∈ ['f', 'N']) :
    c ∉ (ofText pattern).currencySign locale := by
  rw [currencySign, currencyGap_ofText]
  by_cases hdollar : pattern.head? = some '$'
  · simp only [if_pos hdollar, List.mem_append, not_or]
    refine ⟨(NumberLocale.letters_of_mem_all locale hl c hc).1, fun hgap => ?_⟩
    have hblank := List.mem_takeWhile_imp hgap
    have hletter := (by simp [isBlank] : ∀ c ∈ ['f', 'N'], isBlank c = false) c hc
    rw [hletter] at hblank
    cases hblank
  · simp only [if_neg hdollar]
    exact List.not_mem_nil

/-- A letter in the text is in what is left of it without the sign and the currency sign. -/
theorem not_isNumber_of_letter (hl : locale ∈ NumberLocale.all) (pattern : Text) {value : Binary64} {c : Char}
    (hletter : c ∈ ['f', 'N']) (hc : c ∈ (ofText pattern).write locale value) :
    ¬ ∃ sign body, (sign = [] ∨ sign = ['-']) ∧ IsNumber locale body ∧
      (ofText pattern).write locale value = sign ++ (ofText pattern).currencySign locale ++ body := by
  rintro ⟨sign, body, hsign, hbody, hwrite⟩
  rw [hwrite, List.mem_append, List.mem_append] at hc
  rcases hc with (hc | hc) | hc
  · rcases hsign with rfl | rfl
    · exact List.not_mem_nil hc
    · cases List.mem_singleton.1 hc
      exact absurd hletter (by decide)
  · exact not_mem_currencySign hl pattern hletter hc
  · exact hbody.not_mem hl hletter hc

/-- The text of a finite number, but for the sign and the currency sign, is a number exactly if the
product with the power of ten is finite. -/
theorem isNumber_iff_finite_product (hl : locale ∈ NumberLocale.all) (pattern : Text) (negative : Bool)
    (u : Magnitude) :
    (∃ sign body, (sign = [] ∨ sign = ['-']) ∧ IsNumber locale body ∧
        (ofText pattern).write locale (.finite negative u) = sign ++ (ofText pattern).currencySign locale ++ body) ↔
      ((ofText pattern).scaled? (.finite negative u)).isSome := by
  constructor
  · intro hnumber
    rw [Option.isSome_iff_ne_none]
    intro hnone
    obtain ⟨c, hletter, hc⟩ := exists_letter_mem_write hnone locale
    exact not_isNumber_of_letter hl pattern hletter hc hnumber
  · intro hsome
    obtain ⟨r, hr⟩ := Option.isSome_iff_exists.1 hsome
    obtain ⟨parts, hshows, hwrite⟩ := exists_shows locale hr
    refine ⟨if parts.negative then ['-'] else [], parts.body locale, ?_, hshows.isNumber_body locale, hwrite⟩
    split
    · exact .inr rfl
    · exact .inl rfl

/-- The largest finite number, written without decimals. -/
theorem isNumber_iff_finite_product_largest :
    let u : Magnitude := ⟨Nat.pow 2 2098 - Nat.pow 2 2045, by decide +kernel⟩
    ((ofText "$ 0,0".toList).scaled? (.finite true u)).isSome ∧
      ∃ sign body, (sign = [] ∨ sign = ['-']) ∧ IsNumber .us body ∧
        (ofText "$ 0,0".toList).write .us (.finite true u) =
          sign ++ (ofText "$ 0,0".toList).currencySign .us ++ body := by
  intro u
  have hfinite : ((ofText "$ 0,0".toList).scaled? (.finite true u)).isSome := by decide +kernel
  exact ⟨hfinite, (isNumber_iff_finite_product (by decide) "$ 0,0".toList true u).2 hfinite⟩

/-- Ten times the number is infinite, and the letters of that are put before and behind the mark. -/
theorem isNumber_iff_finite_product_infinite :
    let value := Decimal.toBinary64 false ⟨17, 307⟩
    (∃ u, value = .finite false u) ∧ (ofText "0.[0]".toList).write .us value = "in.f".toList ∧
      ¬ ∃ sign body, (sign = [] ∨ sign = ['-']) ∧ IsNumber .us body ∧
        (ofText "0.[0]".toList).write .us value = sign ++ (ofText "0.[0]".toList).currencySign .us ++ body := by
  intro value
  have hfinite : value = .finite false
      ⟨Magnitude.nearest (17 * Nat.pow 10 307 * Magnitude.one) 1, by decide +kernel⟩ := by
    decide +kernel
  have htext : (ofText "0.[0]".toList).write .us value = "in.f".toList := by decide +kernel
  have hletter : 'f' ∈ (ofText "0.[0]".toList).write .us value := by
    rw [htext]
    decide
  exact ⟨⟨_, hfinite⟩, htext, not_isNumber_of_letter (by decide) "0.[0]".toList (by decide) hletter⟩

end Numeral

end CellFormat
