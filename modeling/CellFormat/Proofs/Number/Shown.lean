import CellFormat.Proofs.Binary64.Rounding
import CellFormat.Proofs.Number.Digits
import CellFormat.Proofs.Number.Reading
/-!
# What a numeral shows of a number

A number is scaled to a whole number of the last decimal place of its numeral,
and what is shown depends on that whole number only. `Shows` says which parts
belong to it: the sign, the digits before the decimal mark in groups, and the
decimals. `shown_of_finite_product` says that these parts, written out, are the
text of the number, and that the whole number and the sign can be read off the
text again. This holds as long as the product with the power of ten is finite.
-/

namespace CellFormat

namespace NumberLocale

/-- No locale mixes up its marks with digits or with each other, and every currency sign is a text that
does not start with a minus sign. -/
theorem marks_of_mem_all : ∀ l ∈ all, l.groupMark.isDigit = false ∧ l.decimalMark.isDigit = false ∧
    l.decimalMark ≠ l.groupMark ∧ l.currency ≠ [] ∧ l.currency.head? ≠ some '-' := by
  decide

end NumberLocale

namespace Numeral

open Text

variable {n : Numeral} {locale : NumberLocale}

/-! ## The parts of a text -/

/-- The currency sign and the blanks after it, if there is one. -/
def currencySign (n : Numeral) (locale : NumberLocale) : Text :=
  match n.currencyGap with
  | some gap => locale.currency ++ gap
  | none => []

theorem writeFinite_eq (value : Binary64) :
    n.writeFinite locale value =
      let digits := n.scaledDigits value
      let decimals := n.layDecimals (digits.drop (digits.length - n.places))
      (if value.isNegative && digits.any (· ≠ '0') then ['-'] else []) ++ n.currencySign locale ++
        n.layInteger locale (digits.take (digits.length - n.places)) ++
        if decimals = [] then [] else locale.decimalMark :: decimals :=
  rfl

/-- The sign, the digits before the decimal mark in groups, and the digits behind it. -/
structure Shown where
  negative : Bool
  groups : List Text
  decimals : Text
  deriving DecidableEq, Repr

namespace Shown

/-- The text behind the sign and the currency sign. -/
def body (s : Shown) (locale : NumberLocale) : Text :=
  List.intercalate [locale.groupMark] s.groups ++ if s.decimals = [] then [] else locale.decimalMark :: s.decimals

/-- The text of the parts. -/
def write (s : Shown) (n : Numeral) (locale : NumberLocale) : Text :=
  (if s.negative then ['-'] else []) ++ n.currencySign locale ++ s.body locale

end Shown

/-- The parts show `r` of the last decimal place: a sign unless `r` is zero, the digits of the quotient
by the power of ten, with no zeros in front but those asked for, and the digits of the remainder,
with as many zeros at the end left out as may be. -/
structure Shows (n : Numeral) (negative : Bool) (r : Nat) (s : Shown) : Prop where
  negative : s.negative = (negative && r ≠ 0)
  whole : s.groups.flatten = ofNatFilled (max 1 n.leastDigits) (r / Nat.pow 10 n.places)
  grouped : if n.grouped then InThrees s.groups else ∃ t, s.groups = [t]
  decimals : ∃ dropped ≤ n.optionalPlaces,
    s.decimals ++ List.replicate dropped '0' = lastDigits n.places r ∧
      (dropped < n.optionalPlaces → s.decimals.getLast? ≠ some '0')

/-! ## The text of a number consists of its parts -/

/-- A number as a whole number of the last decimal place, a half going away from zero; none if the
product with the power of ten is not finite. -/
def scaled? (n : Numeral) (value : Binary64) : Option Nat :=
  match value.abs.mul (.tenPow n.places) with
  | .finite _ m => some m.rounded
  | _ => none

theorem scaledDigits_of_scaled? {value : Binary64} {r : Nat} (h : n.scaled? value = some r) :
    n.scaledDigits value = ofNat (r / Nat.pow 10 n.places) ++ lastDigits n.places r := by
  unfold scaled? at h
  split at h
  · next m hm =>
    cases h
    rw [scaledDigits, hm, roundedText, zeroFill_ofNat]
  · cases h

/-- A number that is not finite has no finite product. -/
theorem exists_finite_of_scaled? {value : Binary64} {r : Nat} (h : n.scaled? value = some r) :
    ∃ negative u, value = .finite negative u := by
  cases value with
  | finite negative u => exact ⟨negative, u, rfl⟩
  | nan =>
    rw [scaled?, Binary64.abs, Binary64.mul] at h
    cases h
  | infinite negative =>
    rw [scaled?, Binary64.abs] at h
    generalize Binary64.tenPow n.places = power at h
    cases power with
    | nan => cases h
    | infinite _ => cases h
    | finite _ u =>
      rw [Binary64.mul] at h
      by_cases hzero : u.units = 0
      · rw [if_pos hzero] at h
        cases h
      · rw [if_neg hzero] at h
        cases h

theorem exists_layInteger (n : Numeral) (locale : NumberLocale) (q : Nat) :
    ∃ groups, groups.flatten = ofNatFilled (max 1 n.leastDigits) q ∧
      (if n.grouped then InThrees groups else ∃ t, groups = [t]) ∧
      n.layInteger locale (ofNat q) = List.intercalate [locale.groupMark] groups := by
  have hfilled := zeroFill_dropWhile_ofNat (Nat.lt_of_lt_of_le Nat.one_pos (Nat.le_max_left 1 n.leastDigits)) q
  simp only [layInteger, hfilled]
  split
  · obtain ⟨groups, hthrees, hflat, hgroup⟩ :=
      exists_groups locale.groupMark (isNumeral_ofNatFilled (max 1 n.leastDigits) q).1
    exact ⟨groups, hflat, hthrees, hgroup⟩
  · exact ⟨[_], List.flatten_singleton .., ⟨_, rfl⟩, List.intercalate_singleton.symm⟩

theorem exists_shows (locale : NumberLocale) {value : Binary64} {r : Nat} (h : n.scaled? value = some r) :
    ∃ parts, Shows n value.isNegative r parts ∧ n.write locale value = parts.write n locale := by
  obtain ⟨groups, hwhole, hgrouped, hinteger⟩ := exists_layInteger n locale (r / Nat.pow 10 n.places)
  have hdigits := scaledDigits_of_scaled? h
  have hsplit : (n.scaledDigits value).length - n.places = (ofNat (r / Nat.pow 10 n.places)).length := by
    rw [hdigits, List.length_append, length_lastDigits, Nat.add_sub_cancel]
  have hsign : (n.scaledDigits value).any (· ≠ '0') = decide (r ≠ 0) := by
    rw [hdigits, ← zeroFill_ofNat, any_zeroFill_ofNat]
  obtain ⟨negative, u, rfl⟩ := exists_finite_of_scaled? h
  refine ⟨⟨(Binary64.finite negative u).isNegative && decide (r ≠ 0), groups, n.layDecimals (lastDigits n.places r)⟩,
    ⟨rfl, hwhole, hgrouped, n.exists_layDecimals _⟩, ?_⟩
  simp only [write, writeFinite_eq, Shown.write, Shown.body]
  rw [hsign, hsplit, hdigits, List.take_left, List.drop_left, hinteger, List.append_assoc _ _ (ite ..)]

/-! ## Reading the parts off the text -/

theorem filter_intercalate {mark : Char} (hmark : mark.isDigit = false) {groups : List Text}
    (h : ∀ c ∈ groups.flatten, c.isDigit) :
    (List.intercalate [mark] groups).filter Char.isDigit = groups.flatten := by
  induction groups with
  | nil => rfl
  | cons g groups ih =>
    rw [List.flatten_cons] at h
    obtain ⟨hg, hgroups⟩ := List.forall_mem_append.1 h
    have hfirst : g.filter Char.isDigit = g := List.filter_eq_self.2 hg
    cases groups with
    | nil => rw [List.intercalate_singleton, hfirst, List.flatten_singleton]
    | cons g' groups =>
      rw [List.intercalate_cons_cons, List.filter_append, List.filter_append, hfirst, ih hgroups, List.flatten_cons,
        List.filter_singleton, hmark]
      simp

theorem mem_intercalate {mark : Char} {groups : List Text} :
    ∀ c ∈ List.intercalate [mark] groups, c ∈ groups.flatten ∨ c = mark := by
  induction groups with
  | nil => exact List.forall_mem_nil _
  | cons g groups ih =>
    intro c hc
    cases groups with
    | nil =>
      rw [List.intercalate_singleton] at hc
      exact .inl (List.mem_flatten_of_mem List.mem_cons_self hc)
    | cons g' groups =>
      rw [List.intercalate_cons_cons, List.mem_append, List.mem_append, List.mem_singleton] at hc
      rcases hc with (hc | hc) | hc
      · exact .inl (List.mem_flatten_of_mem List.mem_cons_self hc)
      · exact .inr hc
      · rw [List.flatten_cons, List.mem_append]
        exact (ih c hc).imp_left .inr

namespace Shows

variable {negative : Bool} {r : Nat} {s : Shown}

theorem isDigit_of_mem_groups (h : Shows n negative r s) : ∀ c ∈ s.groups.flatten, c.isDigit := by
  rw [h.whole]
  exact (isNumeral_ofNatFilled _ _).2

theorem isDigit_of_mem_decimals (h : Shows n negative r s) : ∀ c ∈ s.decimals, c.isDigit := by
  obtain ⟨dropped, -, hdecimals, -⟩ := h.decimals
  intro c hc
  apply isDigit_of_mem_lastDigits n.places r
  rw [← hdecimals]
  exact List.mem_append_left _ hc

theorem exists_groups_cons (h : Shows n negative r s) : ∃ c t rest, s.groups = (c :: t) :: rest := by
  have hgrouped := h.grouped
  split at hgrouped
  · obtain ⟨_, _ | ⟨first, rest⟩, _⟩ := s
    · exact hgrouped.elim
    · obtain ⟨c, t, rfl⟩ := List.exists_cons_of_length_pos hgrouped.1
      exact ⟨c, t, rest, rfl⟩
  · obtain ⟨first, hfirst⟩ := hgrouped
    have hwhole := h.whole
    rw [hfirst, List.flatten_singleton] at hwhole
    obtain ⟨c, t, hct⟩ := List.exists_cons_of_ne_nil (isNumeral_ofNatFilled (max 1 n.leastDigits) _).1
    exact ⟨c, t, [], by rw [hfirst, hwhole, hct]⟩

/-- The digits before the mark start with a digit. -/
theorem head_intercalate (h : Shows n negative r s) (mark : Char) :
    ∃ c, (List.intercalate [mark] s.groups).head? = some c ∧ c.isDigit := by
  obtain ⟨c, t, rest, hgroups⟩ := h.exists_groups_cons
  refine ⟨c, ?_, h.isDigit_of_mem_groups c ?_⟩
  · rw [hgroups]
    cases rest with
    | nil => rw [List.intercalate_singleton]; rfl
    | cons g rest => rw [List.intercalate_cons_cons]; rfl
  · rw [hgroups]
    exact List.mem_flatten_of_mem List.mem_cons_self List.mem_cons_self

/-- The decimal mark ends the digits before it, so the body falls into its two parts. -/
theorem cut_body (hl : locale ∈ NumberLocale.all) (h : Shows n negative r s) :
    (s.body locale).takeWhile (· ≠ locale.decimalMark) = List.intercalate [locale.groupMark] s.groups ∧
      ((s.body locale).dropWhile (· ≠ locale.decimalMark)).tail = s.decimals := by
  obtain ⟨-, hdecimal, hmarks, -⟩ := NumberLocale.marks_of_mem_all locale hl
  have hbefore : ∀ c ∈ List.intercalate [locale.groupMark] s.groups, decide (c ≠ locale.decimalMark) = true := by
    intro c hc
    rw [decide_eq_true_eq]
    rintro rfl
    rcases mem_intercalate _ hc with hmem | hmark
    · have hdigit := h.isDigit_of_mem_groups _ hmem
      rw [hdecimal] at hdigit
      cases hdigit
    · exact hmarks hmark
  rw [Shown.body, List.takeWhile_append_of_pos hbefore, List.dropWhile_append_of_pos hbefore]
  split
  · next hnil => simp [hnil]
  · simp

/-- Neither a currency sign nor a digit is a minus sign. -/
theorem head_ne_minus (hl : locale ∈ NumberLocale.all) (h : Shows n negative r s) :
    (n.currencySign locale ++ s.body locale).head? ≠ some '-' := by
  obtain ⟨-, -, -, hne, hcurrency⟩ := NumberLocale.marks_of_mem_all locale hl
  rw [currencySign]
  split
  · next gap _ =>
    rwa [List.append_assoc, List.head?_append_of_ne_nil _ hne]
  · obtain ⟨c, hc, hdigit⟩ := h.head_intercalate locale.groupMark
    rw [List.nil_append, Shown.body, List.head?_append, hc]
    rintro ⟨⟩
    cases hdigit

/-- The text of the parts tells the sign and the whole number. -/
theorem eq_of_write_eq (hl : locale ∈ NumberLocale.all) {negative' : Bool} {r' : Nat} {s' : Shown}
    (h : Shows n negative r s) (h' : Shows n negative' r' s') (heq : s.write n locale = s'.write n locale) :
    s.negative = s'.negative ∧ r = r' := by
  have hhead := h.head_ne_minus hl
  have hhead' := h'.head_ne_minus hl
  rw [Shown.write, Shown.write, List.append_assoc, List.append_assoc] at heq
  have hsign : s.negative = s'.negative ∧
      n.currencySign locale ++ s.body locale = n.currencySign locale ++ s'.body locale := by
    cases hs : s.negative <;> cases hs' : s'.negative <;> simp only [hs, hs'] at heq
    · exact ⟨rfl, heq⟩
    · exact absurd (congrArg List.head? heq) hhead
    · exact absurd (congrArg List.head? heq).symm hhead'
    · exact ⟨rfl, (List.cons.inj heq).2⟩
  obtain ⟨hnegative, hbody⟩ := hsign
  replace hbody := List.append_cancel_left hbody
  obtain ⟨hinteger, hdecimals⟩ := h.cut_body hl
  obtain ⟨hinteger', hdecimals'⟩ := h'.cut_body hl
  have hquot : r / Nat.pow 10 n.places = r' / Nat.pow 10 n.places := by
    have hmark := (NumberLocale.marks_of_mem_all locale hl).1
    have hflat : s.groups.flatten = s'.groups.flatten := by
      rw [← filter_intercalate hmark h.isDigit_of_mem_groups, ← filter_intercalate hmark h'.isDigit_of_mem_groups,
        ← hinteger, ← hinteger', hbody]
    rw [h.whole, h'.whole] at hflat
    have hvalue := congrArg Decimal.natOfDigits hflat
    rwa [ofNatFilled, ofNatFilled, natOfDigits_zeroFill, natOfDigits_zeroFill, Decimal.natOfDigits_ofNat,
      Decimal.natOfDigits_ofNat] at hvalue
  have hmod : r % Nat.pow 10 n.places = r' % Nat.pow 10 n.places := by
    obtain ⟨dropped, -, hlast, -⟩ := h.decimals
    obtain ⟨dropped', -, hlast', -⟩ := h'.decimals
    have hsame : s.decimals = s'.decimals := by rw [← hdecimals, ← hdecimals', hbody]
    -- All places are filled, so as many zeros have been left out.
    have hcount := congrArg List.length hlast
    have hcount' := congrArg List.length hlast'
    rw [List.length_append, List.length_replicate, length_lastDigits] at hcount hcount'
    have hdropped : dropped = dropped' := by
      rw [hsame] at hcount
      omega
    rw [← natOfDigits_lastDigits, ← natOfDigits_lastDigits, ← hlast, ← hlast', hsame, hdropped]
  refine ⟨hnegative, ?_⟩
  rw [← Nat.div_add_mod r (Nat.pow 10 n.places), hquot, hmod, Nat.div_add_mod]

end Shows

/-! ## The text of a number -/

/-- A pattern asks for what its characters say. A number whose product with the power of ten is finite is
written as the parts of that product, rounded. No other text is written for another whole number, or for
the other sign of it unless it is zero. -/
theorem shown_of_finite_product (hl : locale ∈ NumberLocale.all) (pattern : Text) {value : Binary64} {r : Nat}
    (h : (ofText pattern).scaled? value = some r) :
    IsReading pattern (ofText pattern) ∧
      (∃ parts, Shows (ofText pattern) value.isNegative r parts ∧
        (ofText pattern).write locale value = parts.write (ofText pattern) locale) ∧
      ∀ {value' r'}, (ofText pattern).scaled? value' = some r' →
        (ofText pattern).write locale value' = (ofText pattern).write locale value →
        r' = r ∧ (r ≠ 0 → value'.isNegative = value.isNegative) := by
  obtain ⟨parts, hshows, hwrite⟩ := exists_shows locale h
  refine ⟨isReading_ofText pattern, ⟨parts, hshows, hwrite⟩, fun {value' r'} h' hsame => ?_⟩
  obtain ⟨parts', hshows', hwrite'⟩ := exists_shows locale h'
  rw [hwrite, hwrite'] at hsame
  obtain ⟨hnegative, rfl⟩ := hshows'.eq_of_write_eq hl hshows hsame
  refine ⟨rfl, fun hne => ?_⟩
  rwa [hshows'.negative, hshows.negative, decide_eq_true hne, Bool.and_true, Bool.and_true] at hnegative

/-- Rounding goes up into a new group, and all decimals but the fixed one are left out. Another pattern asks for
three digits before the mark and two fixed decimals behind it. -/
theorem shown_of_finite_product_new_group :
    let n := ofText "$ 0,0.0[00]".toList
    let value := Decimal.toBinary64 true ⟨9999995, -4⟩
    let n' := ofText "000.00[0]".toList
    let value' := Decimal.toBinary64 false ⟨75, -1⟩
    (n.scaled? value = some 1000000 ∧ n.write .us value = "-$ 1,000.0".toList ∧
      IsReading "$ 0,0.0[00]".toList n ∧ ∃ parts, Shows n true 1000000 parts ∧ n.write .us value = parts.write n .us) ∧
    n'.scaled? value' = some 7500 ∧ n'.write .us value' = "007.50".toList ∧
      IsReading "000.00[0]".toList n' ∧ n' = ⟨none, false, 3, 2, 1⟩ ∧
        ∃ parts, Shows n' false 7500 parts ∧ n'.write .us value' = parts.write n' .us := by
  intro n value n' value'
  have hscaled : n.scaled? value = some 1000000 := by decide +kernel
  have hscaled' : n'.scaled? value' = some 7500 := by decide +kernel
  have hus : NumberLocale.us ∈ NumberLocale.all := by decide
  obtain ⟨hreading, hparts, -⟩ := shown_of_finite_product hus "$ 0,0.0[00]".toList hscaled
  obtain ⟨hreading', hparts', -⟩ := shown_of_finite_product hus "000.00[0]".toList hscaled'
  have hnegative : value.isNegative = true := by decide +kernel
  have hnegative' : value'.isNegative = false := by decide +kernel
  rw [hnegative] at hparts
  rw [hnegative'] at hparts'
  exact ⟨⟨hscaled, by decide +kernel, hreading, hparts⟩, hscaled', by decide +kernel, hreading', by decide, hparts'⟩

end Numeral

end CellFormat
