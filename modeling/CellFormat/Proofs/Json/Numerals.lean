import CellFormat.Proofs.Json.Numbers
/-!
# Written numbers are numerals

What is written from the parts of a number is a numeral, and
`ofNumeral?_write` says that reading the numeral gives the value of the parts.
The reader of numerals asks for less than that of numbers in payloads, but on
these texts the two agree.
-/

namespace CellFormat

namespace Text

variable {t : Text}

/-- A digit has no case. -/
theorem toLower_of_isDigit {c : Char} (h : c.isDigit) : c.toLower = c := by
  have hupper : ¬ (c.val ≥ 'A'.val ∧ c.val ≤ 'Z'.val) := by
    simp only [Char.isDigit, Bool.and_eq_true, decide_eq_true_eq] at h
    intro hletter
    exact absurd (UInt32.le_trans hletter.1 h.2) (by decide)
  exact dif_neg hupper

theorem map_toLower_of_isDigit (ht : ∀ d ∈ t, d.isDigit) : t.map Char.toLower = t := by
  rw [List.map_congr_left fun c hc => toLower_of_isDigit (ht c hc), List.map_id']

end Text

namespace Json

open Decimal

variable {whole fraction : Text} {n : NumberParts}

/-! ## The pieces of a numeral -/

theorem mantissa?_writeFraction (hw : whole.IsNumeral) (hf : ∀ c ∈ fraction, c.isDigit) :
    mantissa? (whole ++ writeFraction fraction) = some ⟨natOfDigits (whole ++ fraction), -(fraction.length : Int)⟩ := by
  have hpoint : '.' ∉ whole := Text.not_mem_of_isDigit hw.2 (by decide)
  by_cases hnil : fraction = []
  · rw [hnil, writeFraction, if_pos rfl, List.append_nil, mantissa?, Text.splitFirst?_eq_none_iff.2 hpoint]
    simp only [nat?_of_isNumeral hw]
    rfl
  · rw [writeFraction, if_neg hnil, mantissa?, Text.splitFirst?_append hpoint]
    simp only [nat?_of_isNumeral (hw.append hf)]
    rfl

theorem int?_power {p : Power} (h : p.digits.IsNumeral) :
    int? ((if p.negative then '-' else '+') :: p.digits) =
      some (if p.negative then -(natOfDigits p.digits : Int) else natOfDigits p.digits) := by
  cases hneg : p.negative <;> simp [int?, nat?_of_isNumeral h]

theorem map_toLower_writeFraction (hf : ∀ c ∈ fraction, c.isDigit) :
    (writeFraction fraction).map Char.toLower = writeFraction fraction := by
  have hdigits := Text.map_toLower_of_isDigit hf
  have hpoint : '.'.toLower = '.' := by decide
  unfold writeFraction
  split
  · rfl
  · rw [List.map_cons, hpoint, hdigits]

theorem map_toLower_power {p : Power} (h : p.digits.IsNumeral) : p.write.map Char.toLower = p.write := by
  have hdigits := Text.map_toLower_of_isDigit h.2
  have hmarks : 'e'.toLower = 'e' ∧ '+'.toLower = '+' ∧ '-'.toLower = '-' := by decide
  cases hneg : p.negative <;> simp [Power.write, hneg, hmarks, hdigits]

theorem e_not_mem_mantissa (hw : whole.IsNumeral) (hf : ∀ c ∈ fraction, c.isDigit) :
    'e' ∉ whole ++ writeFraction fraction := by
  have hwhole : 'e' ∉ whole := Text.not_mem_of_isDigit hw.2 (by decide)
  have hfraction : 'e' ∉ fraction := Text.not_mem_of_isDigit hf (by decide)
  unfold writeFraction
  split <;> simp [hwhole, hfraction]

/-! ## The whole numeral -/

theorem ofText?_write (h : n.Proper) :
    ofText? (n.whole ++ (writeFraction n.fraction ++ n.power.elim [] Power.write)) =
      some ⟨n.digits, n.exponent - n.fraction.length⟩ := by
  have hmantissa := mantissa?_writeFraction h.whole.numeral h.fraction
  have hnone := e_not_mem_mantissa h.whole.numeral h.fraction
  have hwhole := Text.map_toLower_of_isDigit h.whole.numeral.2
  have hfraction := map_toLower_writeFraction h.fraction
  cases hpower : n.power with
  | none =>
    rw [Option.elim_none, List.append_nil, ofText?, List.map_append, hwhole, hfraction,
      Text.splitFirst?_eq_none_iff.2 hnone]
    simp only [hmantissa, NumberParts.digits, NumberParts.exponent, hpower, Int.zero_sub]
  | some p =>
    have hdigits := h.power p hpower
    have hwrite : p.write = 'e' :: (if p.negative then '-' else '+') :: p.digits := rfl
    rw [Option.elim_some, ofText?, List.map_append, List.map_append, hwhole, hfraction, map_toLower_power hdigits,
      ← List.append_assoc, hwrite, Text.splitFirst?_append hnone]
    have hexponent : n.exponent = if p.negative then -(natOfDigits p.digits : Int) else natOfDigits p.digits := by
      rw [NumberParts.exponent, hpower]
    simp only [hmantissa, int?_power hdigits, ← hexponent, bind, Option.bind, NumberParts.digits,
      Int.add_comm (-_), Int.add_neg_eq_sub]

/-- Proper parts are read as their value. -/
theorem ofNumeral?_write (h : n.Proper) : Binary64.ofNumeral? n.write = some n.toBinary64 := by
  have hread := ofText?_write h
  cases hneg : n.negative with
  | true => simp only [NumberParts.write, hneg, if_true, List.singleton_append, Binary64.ofNumeral?, hread,
      NumberParts.toBinary64, Option.map_some]
  | false =>
    -- The first character is a digit, so it is no sign.
    obtain ⟨hne, hdigits⟩ := h.whole.numeral
    obtain ⟨c, t, hw⟩ := List.exists_cons_of_ne_nil hne
    have hc : c ≠ '-' := by
      rintro rfl
      exact absurd (hdigits '-' (hw ▸ List.mem_cons_self)) (by decide)
    rw [NumberParts.write, hneg, if_neg Bool.false_ne_true, List.nil_append]
    unfold Binary64.ofNumeral?
    split
    · next heq =>
      rw [hw, List.cons_append] at heq
      exact absurd (List.cons.inj heq).1 hc
    · rw [hread, NumberParts.toBinary64, hneg, Option.map_some]

end Json

end CellFormat
