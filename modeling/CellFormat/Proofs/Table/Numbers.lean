import CellFormat.Proofs.Number.StoredNumeral
/-!
# What number cells show of their stored patterns

A number cell is written by the numeral of its stored pattern. Its currency sign
and its decimals are what the stored pattern asks for
(`display_of_stored_pattern`), whatever way the pattern was rewritten.

With its groups it is different. A leading group of `#` is dropped together with
the comma behind it, so `#,##0` is shown without groups although `#,###` is
shown with them. `groups_of_stored_pattern` says which patterns keep their
groups.
-/

namespace CellFormat

open StoredPattern Text

namespace NumberLocale

theorem lookup_mem_all (code : Text) : lookup code ∈ all := by
  unfold lookup
  cases h : all.find? fun l => l.code.equalIgnoringCase code with
  | none => exact List.mem_cons_self
  | some l => exact List.mem_of_find?_eq_some h

/-- Every currency sign has a character that no number has. -/
theorem exists_mem_currency {l : NumberLocale} (hl : l ∈ all) :
    ∃ c ∈ l.currency, c ≠ '-' ∧ c.isDigit = false ∧ c ≠ l.groupMark ∧ c ≠ l.decimalMark := by
  have hany : ∀ l ∈ all,
      l.currency.any (fun c => c ≠ '-' && !c.isDigit && c ≠ l.groupMark && c ≠ l.decimalMark) = true := by
    decide
  obtain ⟨c, hc, hmarks⟩ := List.any_eq_true.1 (hany l hl)
  simp only [Bool.and_eq_true, decide_eq_true_eq, Bool.not_eq_eq_eq_not, Bool.not_true] at hmarks
  obtain ⟨⟨⟨hminus, hdigit⟩, hgroup⟩, hdecimal⟩ := hmarks
  exact ⟨c, hc, hminus, hdigit, hgroup, hdecimal⟩

end NumberLocale

theorem Display.locale_mem_all (f : DisplayFormat) : locale f ∈ NumberLocale.all := NumberLocale.lookup_mem_all _

namespace Numeral

variable {n : Numeral} {negative : Bool} {r : Nat} {s : Shown}

/-! ## Digits -/

theorem two_le_length_of_inThrees {groups : List Text} (h : InThrees groups) (hlong : 4 ≤ groups.flatten.length) :
    2 ≤ groups.length := by
  obtain _ | ⟨first, _ | ⟨next, rest⟩⟩ := groups
  · exact h.elim
  · obtain ⟨-, hle, -⟩ := h
    rw [List.flatten_singleton] at hlong
    omega
  · exact Nat.le_add_left 2 rest.length

namespace Shows

theorem natOfDigits_groups (h : Shows n negative r s) :
    Decimal.natOfDigits s.groups.flatten = r / Nat.pow 10 n.places := by
  rw [h.whole, ofNatFilled, natOfDigits_zeroFill, Decimal.natOfDigits_ofNat]

/-- All digits, with zeros for the decimals that are left out, are those of the whole number. -/
theorem natOfDigits_eq (h : Shows n negative r s) :
    Decimal.natOfDigits (s.groups.flatten ++ s.decimals ++ List.replicate (n.places - s.decimals.length) '0') = r := by
  obtain ⟨dropped, -, hlast, -⟩ := h.decimals
  have hlen := congrArg List.length hlast
  rw [List.length_append, List.length_replicate, length_lastDigits] at hlen
  have hdropped : n.places - s.decimals.length = dropped := by omega
  rw [hdropped, List.append_assoc, hlast, Decimal.natOfDigits_append, length_lastDigits, natOfDigits_lastDigits,
    h.natOfDigits_groups, Nat.mul_comm, Nat.div_add_mod]

/-- The decimals are the fixed ones and as many of the others as it takes to leave out the zeros at the
end. -/
theorem length_decimals (h : Shows n negative r s) :
    n.fixedPlaces ≤ s.decimals.length ∧ s.decimals.length ≤ n.places ∧
      (n.fixedPlaces < s.decimals.length → s.decimals.getLast? ≠ some '0') := by
  obtain ⟨dropped, hle, hlast, hnonzero⟩ := h.decimals
  have hlen := congrArg List.length hlast
  rw [List.length_append, List.length_replicate, length_lastDigits, places] at hlen
  refine ⟨by omega, by rw [places]; omega, fun hmore => hnonzero (by omega)⟩

theorem isDigit_of_mem (h : Shows n negative r s) : ∀ c ∈ s.groups.flatten ++ s.decimals, c.isDigit :=
  List.forall_mem_append.2 ⟨h.isDigit_of_mem_groups, h.isDigit_of_mem_decimals⟩

/-- From a thousand on there is more than one group. -/
theorem two_le_length_groups_iff (h : Shows n negative r s) (hlarge : 1000 ≤ r / Nat.pow 10 n.places) :
    InThrees s.groups ∧ 2 ≤ s.groups.length ↔ n.grouped = true := by
  have hgrouped := h.grouped
  split at hgrouped
  · next hn =>
    have hcount : ¬ (ofNat (r / Nat.pow 10 n.places)).length ≤ 3 := by
      rw [ofNat, Nat.length_toDigits_le_iff (by decide) (by decide)]
      exact Nat.not_lt.2 hlarge
    have hlong : 4 ≤ s.groups.flatten.length := by
      rw [h.whole, ofNatFilled, zeroFill, List.length_leftpad]
      exact Nat.le_trans (Nat.not_le.1 hcount) (Nat.le_max_right _ _)
    exact iff_of_true ⟨hgrouped, two_le_length_of_inThrees hgrouped hlong⟩ hn
  · next hn =>
    obtain ⟨t, ht⟩ := hgrouped
    refine iff_of_false ?_ hn
    rw [ht]
    rintro ⟨-, htwo⟩
    exact absurd htwo (by simp)

end Shows

end Numeral

/-! ## Currency signs -/

/-- The currency sign of a locale, with the space that a stored pattern has after its own. -/
def StoredPattern.Parts.currencyIn (p : Parts) (locale : NumberLocale) : Text :=
  if p.currency = [] then [] else locale.currency ++ p.currency.tail

theorem Display.currencySign_numeral (p : Parts) (code : Option Text) (locale : NumberLocale) :
    (numeral ⟨p.text, code⟩).currencySign locale = p.currencyIn locale := by
  rw [Numeral.currencySign, (numeral_text p code).1, Numeral.gapAfter, Parts.currencyIn]
  by_cases hnone : p.currency = []
  · rw [if_pos hnone, if_pos hnone]
  · rw [if_neg hnone, if_neg hnone]

/-- The currency sign stands in a text if the stored pattern has one, and nowhere else. -/
theorem currency_infix_iff {locale : NumberLocale} (hl : locale ∈ NumberLocale.all) (p : Parts) {negative : Bool}
    {body : Text} (hbody : IsNumber locale body) :
    locale.currency <:+: (if negative then ['-'] else []) ++ p.currencyIn locale ++ body ↔
      p.text.head? = some '$' := by
  rw [p.head?_text_iff]
  unfold Parts.currencyIn
  by_cases hnone : p.currency = []
  · refine iff_of_false (fun hwithin => ?_) (not_not_intro hnone)
    rw [if_pos hnone, List.append_nil] at hwithin
    obtain ⟨c, hc, hminus, hdigit, hgroup, hdecimal⟩ := NumberLocale.exists_mem_currency hl
    rcases List.mem_append.1 (hwithin.subset hc) with hmem | hmem
    · cases negative
      · cases hmem
      · exact hminus (List.mem_singleton.1 hmem)
    · rcases hbody.mem hmem with h | h | h
      · rw [hdigit] at h
        cases h
      · exact hgroup h
      · exact hdecimal h
  · refine iff_of_true ?_ hnone
    rw [if_neg hnone]
    exact ⟨if negative then ['-'] else [], p.currency.tail ++ body, by simp⟩

/-! ## Number cells -/

/-- A number whose product with the power of ten of its stored pattern is finite is written by that
pattern's numeral. -/
theorem Cell.exists_shows {c : Cell} {p : Parts} {code : Option Text} {v : Binary64} {negative : Bool} {m : Magnitude}
    (hk : c.kind = .number) (hn : c.number = some v) (hf : c.displayFormat = some ⟨p.text, code⟩)
    (hm : v.abs.mul (.tenPow p.places) = .finite negative m) :
    (Display.numeral ⟨p.text, code⟩).places = p.places ∧
      ∃ s : Numeral.Shown, Numeral.Shows (Display.numeral ⟨p.text, code⟩) v.isNegative m.rounded s ∧
        c.display = (if s.negative then ['-'] else []) ++ p.currencyIn (Display.locale ⟨p.text, code⟩) ++
          s.body (Display.locale ⟨p.text, code⟩) := by
  obtain ⟨-, hfixed, hoptional⟩ := Display.numeral_text p code
  have hplaces : (Display.numeral ⟨p.text, code⟩).places = p.places := by
    rw [Numeral.places, hfixed, hoptional]
    rfl
  have hscaled : (Display.numeral ⟨p.text, code⟩).scaled? v = some m.rounded := by
    rw [Numeral.scaled?, hplaces, hm]
  obtain ⟨s, hs, hwrite⟩ := Numeral.exists_shows (Display.locale ⟨p.text, code⟩) hscaled
  refine ⟨hplaces, s, hs, ?_⟩
  rw [display, hk, hn, hf]
  simp only [Display.number, hwrite, Numeral.Shown.write, Display.currencySign_numeral]

/-- The currency sign of the locale is shown, with the space of the stored pattern, exactly if the stored
pattern begins with a sign. The number is rounded to all decimals of the stored pattern; those that are
fixed are shown, and of the others none that is a zero at the end. -/
theorem Cell.display_of_stored_pattern {c : Cell} {p : Parts} {code : Option Text} {v : Binary64} {negative : Bool}
    {m : Magnitude} (hk : c.kind = .number) (hn : c.number = some v) (hf : c.displayFormat = some ⟨p.text, code⟩)
    (hm : v.abs.mul (.tenPow p.places) = .finite negative m) :
    let locale := Display.locale ⟨p.text, code⟩
    (locale.currency <:+: c.display ↔ p.text.head? = some '$') ∧
      ∃ s : Numeral.Shown,
        c.display = (if s.negative then ['-'] else []) ++ p.currencyIn locale ++ s.body locale ∧
        IsNumber locale (s.body locale) ∧ (∀ d ∈ s.groups.flatten ++ s.decimals, d.isDigit) ∧
        s.negative = (v.isNegative && m.rounded ≠ 0) ∧
        Decimal.natOfDigits
          (s.groups.flatten ++ s.decimals ++ List.replicate (p.places - s.decimals.length) '0') = m.rounded ∧
        p.fixedPlaces ≤ s.decimals.length ∧ s.decimals.length ≤ p.fixedPlaces + p.optionalPlaces ∧
        (p.fixedPlaces < s.decimals.length → s.decimals.getLast? ≠ some '0') := by
  intro locale
  obtain ⟨hplaces, s, hs, hdisplay⟩ := exists_shows hk hn hf hm
  have hnumber := hs.isNumber_body locale
  obtain ⟨hleast, hmost, hnonzero⟩ := hs.length_decimals
  have hvalue := hs.natOfDigits_eq
  rw [(Display.numeral_text p code).2.1] at hleast hnonzero
  rw [hplaces] at hmost hvalue
  refine ⟨?_, s, hdisplay, hnumber, hs.isDigit_of_mem, hs.negative, hvalue, hleast, hmost, hnonzero⟩
  rw [hdisplay]
  exact currency_infix_iff (Display.locale_mem_all _) p hnumber

/-- A comma that goes with the dropped group, a space after the currency sign, and of three decimals the two
zeros at the end left out. -/
theorem Cell.display_of_stored_pattern_euro :
    let v := Decimal.toBinary64 true ⟨12345, -1⟩
    let c : Cell := { kind := .number, number := some v,
                      displayFormat := some ⟨"$ #,##0.0##".toList, some "de".toList⟩ }
    let m : Magnitude := ⟨1234500 * Magnitude.one, by decide +kernel⟩
    c.display = "-€ 1234,5".toList ∧
      ∃ p : Parts, p.text = "$ #,##0.0##".toList ∧ p.fixedPlaces = 1 ∧ p.optionalPlaces = 2 ∧
        v.abs.mul (.tenPow p.places) = .finite false m ∧ ("€".toList <:+: c.display ↔ p.text.head? = some '$') := by
  intro v c m
  let p : Parts := ⟨"$ ".toList, "#,##0".toList, some "0##".toList, by simp [IsCurrency], by simp [IsWhole],
    by simp [IsDigits]⟩
  have hm : v.abs.mul (.tenPow p.places) = .finite false m := by decide +kernel
  have hcurrency := (Cell.display_of_stored_pattern (c := c) (p := p) rfl rfl rfl hm).1
  exact ⟨by decide +kernel, p, rfl, rfl, rfl, hm, hcurrency⟩

/-! ## Groups -/

/-- From a thousand on a pattern with a comma shows more than one group, each but the first of three digits,
if it keeps its groups, and all digits in one if it does not. -/
theorem Cell.groups_of_stored_pattern {c : Cell} {p : Parts} {code : Option Text} {v : Binary64} {negative : Bool}
    {m : Magnitude} (hk : c.kind = .number) (hn : c.number = some v) (hf : c.displayFormat = some ⟨p.text, code⟩)
    (hm : v.abs.mul (.tenPow p.places) = .finite negative m) (hcomma : ',' ∈ p.whole)
    (hlarge : 1000 ≤ m.rounded / Nat.pow 10 p.places) :
    let locale := Display.locale ⟨p.text, code⟩
    ∃ s : Numeral.Shown,
      c.display = (if s.negative then ['-'] else []) ++ p.currencyIn locale ++ s.body locale ∧
      (∀ d ∈ s.groups.flatten ++ s.decimals, d.isDigit) ∧
      Decimal.natOfDigits s.groups.flatten = m.rounded / Nat.pow 10 p.places ∧
      (Numeral.InThrees s.groups ∧ 2 ≤ s.groups.length ↔ p.KeepsGroups) ∧
      (¬ p.KeepsGroups → ∃ t, s.groups = [t]) := by
  intro locale
  obtain ⟨hplaces, s, hs, hdisplay⟩ := exists_shows hk hn hf hm
  have hwhole := hs.natOfDigits_groups
  rw [hplaces] at hwhole
  have hgrouped := Display.grouped_numeral_iff hcomma code
  refine ⟨s, hdisplay, hs.isDigit_of_mem, hwhole, ?_, fun hloses => ?_⟩
  · rw [hs.two_le_length_groups_iff (hplaces ▸ hlarge), hgrouped]
  · have hs := hs.grouped
    rwa [if_neg (mt hgrouped.1 hloses)] at hs

/-- A dropped group in front of two others takes only one of the commas with it. -/
theorem Cell.groups_of_stored_pattern_two_commas :
    let v := Decimal.toBinary64 false ⟨12345675, -1⟩
    let c : Cell := { kind := .number, number := some v,
                      displayFormat := some ⟨"$#,###,##0.0#".toList, some "es".toList⟩ }
    let m : Magnitude := ⟨123456750 * Magnitude.one, by decide +kernel⟩
    c.display = "€1.234.567,5".toList ∧
      ∃ p : Parts, p.text = "$#,###,##0.0#".toList ∧ ',' ∈ p.whole ∧
        v.abs.mul (.tenPow p.places) = .finite false m ∧ 1000 ≤ m.rounded / Nat.pow 10 p.places ∧ p.KeepsGroups ∧
        ∃ groups, Numeral.InThrees groups ∧ 2 ≤ groups.length ∧ Decimal.natOfDigits groups.flatten = 1234567 := by
  intro v c m
  let p : Parts := ⟨"$".toList, "#,###,##0".toList, some "0#".toList, by simp [IsCurrency], by simp [IsWhole],
    by simp [IsDigits]⟩
  have hcomma : ',' ∈ p.whole := by decide
  have hm : v.abs.mul (.tenPow p.places) = .finite false m := by decide +kernel
  have hlarge : 1000 ≤ m.rounded / Nat.pow 10 p.places := by decide +kernel
  have hkeeps : p.KeepsGroups := by
    refine .inl ?_
    rw [losesComma_iff]
    rintro ⟨lead, rest, -, hsplit⟩
    cases hsplit
  obtain ⟨s, -, -, hwhole, hiff, -⟩ :=
    Cell.groups_of_stored_pattern (c := c) (p := p) rfl rfl rfl hm hcomma hlarge
  obtain ⟨hthrees, htwo⟩ := hiff.2 hkeeps
  have hvalue : m.rounded / Nat.pow 10 p.places = 1234567 := by decide +kernel
  exact ⟨by decide +kernel, p, rfl, hcomma, hm, hlarge, hkeeps, s.groups, hthrees, htwo, hwhole.trans hvalue⟩

/-- The dropped group takes the only comma with it, and four digits are shown without a mark. The table has a
pattern of the same kind, and shows them with one. -/
theorem Cell.groups_of_stored_pattern_only_comma :
    let v := Decimal.toBinary64 false ⟨1234, 0⟩
    let shown : Text → Text := fun pattern =>
      ({ kind := .number, number := some v, displayFormat := some ⟨pattern, none⟩ } : Cell).display
    shown "#,##0".toList = "1234".toList ∧ shown "#,###".toList = "1,234".toList ∧
      ¬ ∀ (c : Cell) (p : Parts) (code : Option Text) (v : Binary64) (negative : Bool) (m : Magnitude),
        c.kind = .number → c.number = some v → c.displayFormat = some ⟨p.text, code⟩ →
        v.abs.mul (.tenPow p.places) = .finite negative m → ',' ∈ p.whole →
        1000 ≤ m.rounded / Nat.pow 10 p.places →
        (Display.locale ⟨p.text, code⟩).groupMark ∈ c.display := by
  intro v shown
  have hshown : shown "#,##0".toList = "1234".toList := by decide +kernel
  refine ⟨hshown, by decide +kernel, fun h => ?_⟩
  let p : Parts := ⟨[], "#,##0".toList, none, by simp [IsCurrency], by simp [IsWhole], by simp⟩
  let m : Magnitude := ⟨1234 * Magnitude.one, by decide +kernel⟩
  have hm : v.abs.mul (.tenPow p.places) = .finite false m := by decide +kernel
  have hmark := h { kind := .number, number := some v, displayFormat := some ⟨"#,##0".toList, none⟩ } p none v false m
    rfl rfl rfl hm (by decide) (by decide +kernel)
  have hdisplay : ',' ∈ shown "#,##0".toList := hmark
  rw [hshown] at hdisplay
  exact absurd hdisplay (by decide)

end CellFormat
