import CellFormat.Proofs.Number.StoredPattern
import CellFormat.Table.Display
/-!
# The numeral of a stored pattern

The numeral pattern that comes out of rewriting is read again by `ofText`. What
is read has the currency sign of the stored pattern and its counts of decimals
(`numeral_text`): this holds for the patterns of the table, for those that are
rewritten piece by piece, and for those of which nothing is left.

It need not be grouped where the stored pattern is. `grouped_numeral_iff` says
which patterns lose their groups.
-/

namespace CellFormat

/-! ## Reading the numeral pattern -/

namespace Numeral

open StoredPattern Text

/-- The two counts of decimals that are read from what stands behind the point. -/
def readPlaces (t : Text) : Nat × Nat :=
  let cut := (splitFirst? '[' t).getD (t, [])
  (cut.1.count '0', (dropTrailing (· = ']') cut.2).count '0')

theorem readPlaces_decimals {t : Text} (ht : IsDigits t) : readPlaces (decimals t) = (fixedCount t, optionalCount t) := by
  have hfixed : '[' ∉ t.takeWhile (· ≠ '#') := fun hmem =>
    ht.not_mem (by decide) (List.takeWhile_subset _ hmem)
  rw [decimals_eq ht]
  split
  · have hclose : dropTrailing (· = ']') (List.replicate (optionalCount t) '0' ++ [']']) =
        List.replicate (optionalCount t) '0' := by
      simp [dropTrailing]
    rw [readPlaces, List.cons_append, splitFirst?_append hfixed, ← optionalCount, Option.getD_some, hclose,
      List.count_replicate_self, fixedCount]
  · next hno =>
    have hnone : splitFirst? '[' t = none := splitFirst?_eq_none_iff.2 (ht.not_mem (by decide))
    rw [List.append_nil, fixedCount, optionalCount, takeWhile_of_not_mem hno, dropWhile_of_not_mem hno, readPlaces, hnone]
    rfl

/-- The blanks after a currency sign, if there is a sign. -/
def gapAfter (currency : Text) : Option Text := if currency = [] then none else some currency.tail

theorem splitCurrency_append {currency t : Text} (hc : IsCurrency currency)
    (ht : ∀ c ∈ t.head?, c ≠ '$' ∧ isBlank c = false) : splitCurrency (currency ++ t) = (gapAfter currency, t) := by
  have htake : t.takeWhile isBlank = [] := by
    cases t with
    | nil => rfl
    | cons c t => rw [List.takeWhile_cons_of_neg (by simp [(ht c rfl).2])]
  have hdrop : t.dropWhile isBlank = t := by
    cases t with
    | nil => rfl
    | cons c t => rw [List.dropWhile_cons_of_neg (by simp [(ht c rfl).2])]
  have hblank : isBlank ' ' = true := by decide
  rcases hc with rfl | rfl | rfl
  · rw [List.nil_append, splitCurrency]
    · rfl
    · rintro u rfl
      exact (ht '$' rfl).1 rfl
  · rw [List.singleton_append, splitCurrency, htake, hdrop]
    rfl
  · rw [List.cons_append, List.singleton_append, splitCurrency, List.takeWhile_cons_of_pos hblank,
      List.dropWhile_cons_of_pos hblank, htake, hdrop]
    rfl

theorem ofText_append {currency whole : Text} (hc : IsCurrency currency) (hw : IsWhole whole) (fraction : Option Text) :
    ofText (currency ++ (whole ++ fraction.elim [] ('.' :: ·))) =
      { currencyGap := gapAfter currency
        grouped := whole.contains ','
        leastDigits := (split ',' whole).1.count '0'
        fixedPlaces := (readPlaces (fraction.getD [])).1
        optionalPlaces := (readPlaces (fraction.getD [])).2 } := by
  have hpoint : '.' ∉ whole := hw.not_mem (by decide)
  have hhead : ∀ c ∈ (whole ++ fraction.elim [] ('.' :: ·)).head?, c ≠ '$' ∧ isBlank c = false := by
    intro c hc
    rw [List.head?_append, Option.mem_def, Option.or_eq_some_iff] at hc
    rcases hc with hc | ⟨-, hc⟩
    · rcases hw c (List.mem_of_head? hc) with rfl | rfl | rfl <;> decide
    · cases fraction with
      | none => cases hc
      | some t =>
        cases hc
        decide
  have hcut : (splitFirst? '.' (whole ++ fraction.elim [] ('.' :: ·))).getD
      (whole ++ fraction.elim [] ('.' :: ·), []) = (whole, fraction.getD []) := by
    cases fraction with
    | none =>
      rw [Option.elim_none, List.append_nil, splitFirst?_eq_none_iff.2 hpoint]
      rfl
    | some t =>
      rw [Option.elim_some, splitFirst?_append hpoint]
      rfl
  simp only [ofText, splitCurrency_append hc hhead, hcut, readPlaces]

end Numeral

/-! ## Patterns by their parts -/

namespace StoredPattern

open Numeral Text

/-- What a stored pattern consists of: perhaps a currency sign, digits in groups, and perhaps decimals
behind a point. -/
structure Parts where
  currency : Text
  whole : Text
  fraction : Option Text
  isCurrency : IsCurrency currency
  isWhole : IsWhole whole
  isDigits : ∀ t ∈ fraction, IsDigits t

namespace Parts

variable (p : Parts)

/-- The pattern. -/
def text : Text := p.currency ++ (p.whole ++ p.fraction.elim [] ('.' :: ·))

/-- The decimals behind the point. -/
def decimals : Text := p.fraction.getD []

/-- The decimals that are always shown. -/
def fixedPlaces : Nat := fixedCount p.decimals

/-- The decimals that are shown unless they are zeros at the end. -/
def optionalPlaces : Nat := optionalCount p.decimals

/-- All decimals. -/
def places : Nat := p.fixedPlaces + p.optionalPlaces

theorem isDigits_decimals : IsDigits p.decimals := by
  unfold decimals
  cases h : p.fraction with
  | none => exact List.forall_mem_nil _
  | some t => exact p.isDigits t h

/-- No other part of a pattern has a currency sign in it. -/
theorem head?_text_iff : p.text.head? = some '$' ↔ p.currency ≠ [] := by
  rcases p.isCurrency with h | h | h
  · refine iff_of_false (fun hhead => ?_) (not_not_intro h)
    rw [text, h, List.nil_append, List.head?_append, Option.or_eq_some_iff] at hhead
    rcases hhead with hhead | ⟨-, hhead⟩
    · exact p.isWhole.not_mem (by decide) (List.mem_of_head? hhead)
    · cases hf : p.fraction <;> rw [hf] at hhead <;> cases hhead
  · exact iff_of_true (by rw [text, h]; rfl) (by simp [h])
  · exact iff_of_true (by rw [text, h]; rfl) (by simp [h])

end Parts

/-- The numeral pattern that is put together from the pieces of a pattern. -/
def byPieces (pattern : Text) : Text :=
  List.intercalate ['.'] (integer (split '.' pattern).1 :: (split '.' pattern).2.modifyHead decimals)

theorem toNumeral_eq (pattern : Text) : toNumeral pattern = (common.lookup pattern).getD (byPieces pattern) := by
  unfold toNumeral byPieces
  cases common.lookup pattern with
  | some numeral => rfl
  | none =>
    cases split '.' pattern with
    | mk whole others =>
      cases others with
      | nil => exact List.intercalate_singleton.symm
      | cons fraction others => rfl

theorem byPieces_text (p : Parts) :
    byPieces p.text = p.currency ++ (integer p.whole ++ (p.fraction.map decimals).elim [] ('.' :: ·)) := by
  have hpoint : '.' ∉ p.currency ++ p.whole := by
    rw [List.mem_append, not_or]
    exact ⟨p.isCurrency.not_mem (by decide), p.isWhole.not_mem (by decide)⟩
  unfold byPieces Parts.text
  cases hf : p.fraction with
  | none =>
    rw [Option.elim_none, List.append_nil, split_of_not_mem hpoint, integer_append p.isCurrency p.isWhole]
    simp
  | some t =>
    have ht : '.' ∉ t := (p.isDigits t hf).not_mem (by decide)
    rw [Option.elim_some, ← List.append_assoc, split_append_cons hpoint, split_of_not_mem ht,
      integer_append p.isCurrency p.isWhole, List.modifyHead_cons, List.intercalate_cons_cons]
    simp

theorem ofText_byPieces (p : Parts) :
    (ofText (byPieces p.text)).currencyGap = gapAfter p.currency ∧
      (ofText (byPieces p.text)).fixedPlaces = p.fixedPlaces ∧
      (ofText (byPieces p.text)).optionalPlaces = p.optionalPlaces ∧
      (ofText (byPieces p.text)).grouped = (integer p.whole).contains ',' := by
  have hdecimals : (p.fraction.map decimals).getD [] = decimals p.decimals := by
    unfold Parts.decimals
    cases p.fraction <;> rfl
  rw [byPieces_text, ofText_append p.isCurrency (isWhole_integer p.isWhole), hdecimals,
    readPlaces_decimals p.isDigits_decimals]
  exact ⟨rfl, rfl, rfl, rfl⟩

/-- The table and the rewriting by pieces agree on all but the groups, and every pattern of the table is
grouped. -/
theorem ofText_common : ∀ entry ∈ common,
    (ofText entry.2).currencyGap = (ofText (byPieces entry.1)).currencyGap ∧
      (ofText entry.2).fixedPlaces = (ofText (byPieces entry.1)).fixedPlaces ∧
      (ofText entry.2).optionalPlaces = (ofText (byPieces entry.1)).optionalPlaces ∧
      (ofText entry.2).grouped = true := by
  decide

/-- The groups of a pattern with a comma come through: not where the comma behind a dropped group is the
only one, unless the table has the pattern or nothing is left of it. -/
def Parts.KeepsGroups (p : Parts) : Prop :=
  ¬ LosesComma p.whole ∨ p.text ∈ common.map Prod.fst ∨ p.text = "#,".toList ∨ p.text = "##,".toList

end StoredPattern

namespace Display

open Numeral StoredPattern

theorem numeral_of_ne_nil {pattern : Text} {code : Option Text} (h : toNumeral pattern ≠ []) :
    numeral ⟨pattern, code⟩ = ofText (toNumeral pattern) := by
  simp only [numeral, if_neg h]

theorem numeral_of_nil {pattern : Text} {code : Option Text} (h : toNumeral pattern = []) :
    numeral ⟨pattern, code⟩ = ofText "0,0".toList := by
  simp only [numeral, if_pos h]

theorem toNumeral_of_lookup {pattern numeral : Text} (h : common.lookup pattern = some numeral) :
    (pattern, numeral) ∈ common ∧ toNumeral pattern = numeral ∧ toNumeral pattern ≠ [] := by
  have hmem : (pattern, numeral) ∈ common := by
    obtain ⟨before, after, hcommon, -⟩ := List.lookup_eq_some_iff.1 h
    rw [hcommon]
    simp
  have heq : toNumeral pattern = numeral := by rw [toNumeral_eq, h, Option.getD_some]
  have hne : ∀ entry ∈ common, entry.2 ≠ [] := by decide
  exact ⟨hmem, heq, heq ▸ hne _ hmem⟩

theorem toNumeral_of_lookup_none {pattern : Text} (h : common.lookup pattern = none) :
    pattern ∉ common.map Prod.fst ∧ toNumeral pattern = byPieces pattern := by
  refine ⟨fun hmem => ?_, by rw [toNumeral_eq, h, Option.getD_none]⟩
  rw [List.lookup_eq_none_iff] at h
  obtain ⟨entry, hentry, hkey⟩ := List.mem_map.1 hmem
  have hother := h entry hentry
  rw [hkey, bne_self_eq_false] at hother
  cases hother

/-- The currency sign and the decimals of a stored pattern are those of its numeral. -/
theorem numeral_text (p : Parts) (code : Option Text) :
    (numeral ⟨p.text, code⟩).currencyGap = gapAfter p.currency ∧
      (numeral ⟨p.text, code⟩).fixedPlaces = p.fixedPlaces ∧
      (numeral ⟨p.text, code⟩).optionalPlaces = p.optionalPlaces := by
  obtain ⟨hgap, hfixed, hoptional, -⟩ := ofText_byPieces p
  cases hl : common.lookup p.text with
  | some found =>
    obtain ⟨hmem, heq, hne⟩ := toNumeral_of_lookup hl
    obtain ⟨hgap', hfixed', hoptional', -⟩ := ofText_common _ hmem
    rw [numeral_of_ne_nil hne, heq]
    exact ⟨hgap'.trans hgap, hfixed'.trans hfixed, hoptional'.trans hoptional⟩
  | none =>
    have heq := (toNumeral_of_lookup_none hl).2
    by_cases hnil : byPieces p.text = []
    · -- The pattern that stands in for no pattern asks for neither a sign nor decimals either.
      rw [numeral_of_nil (heq.trans hnil)]
      rw [hnil] at hgap hfixed hoptional
      exact ⟨hgap, hfixed, hoptional⟩
    · rw [numeral_of_ne_nil (heq ▸ hnil), heq]
      exact ⟨hgap, hfixed, hoptional⟩

theorem grouped_numeral_iff {p : Parts} (hcomma : ',' ∈ p.whole) (code : Option Text) :
    (numeral ⟨p.text, code⟩).grouped = true ↔ p.KeepsGroups := by
  unfold Parts.KeepsGroups
  cases hl : common.lookup p.text with
  | some found =>
    obtain ⟨hmem, heq, hne⟩ := toNumeral_of_lookup hl
    obtain ⟨-, -, -, hgrouped⟩ := ofText_common _ hmem
    rw [numeral_of_ne_nil hne, heq]
    exact iff_of_true hgrouped (.inr (.inl (List.mem_map_of_mem hmem)))
  | none =>
    obtain ⟨hout, heq⟩ := toNumeral_of_lookup_none hl
    by_cases hnil : byPieces p.text = []
    · rw [numeral_of_nil (heq.trans hnil)]
      refine iff_of_true (by decide) (.inr (.inr ?_))
      rw [byPieces_text, List.append_eq_nil_iff, List.append_eq_nil_iff] at hnil
      obtain ⟨hcurrency, hinteger, hfraction⟩ := hnil
      have hwhole := eq_of_integer_eq_nil p.isWhole hcomma hinteger
      have hnone : p.fraction = none := by
        cases hf : p.fraction with
        | none => rfl
        | some t =>
          rw [hf] at hfraction
          cases hfraction
      simpa [Parts.text, hcurrency, hnone] using hwhole
    · have hnothing : byPieces "#,".toList = [] ∧ byPieces "##,".toList = [] := by decide
      rw [numeral_of_ne_nil (heq ▸ hnil), heq, (ofText_byPieces p).2.2.2, List.contains_iff_mem,
        comma_mem_integer_iff p.isWhole hcomma, or_iff_left]
      rintro (hmem | htext | htext)
      · exact hout hmem
      · exact hnil (htext ▸ hnothing.1)
      · exact hnil (htext ▸ hnothing.2)

end Display

end CellFormat
