import CellFormat.Number.Numeral
import CellFormat.Proofs.Decimal.Digits
/-!
# What the characters of a numeral pattern ask for

A pattern is read in pieces: the currency sign and the blanks after it are taken
off, the rest is cut at the point, and the decimals at the bracket. `IsReading`
says what a pattern asks for without cutting it, by the characters that stand
before and behind the first point, comma and bracket of the whole pattern.

`isReading_ofText`: this is how every pattern is read.
-/

namespace CellFormat

namespace Text

variable {t : Text} {separator : Char}

/-! ## Up to a separator -/

theorem all_ne_of_not_mem (h : separator ∉ t) : ∀ d ∈ t, decide (d ≠ separator) = true := by
  intro d hd
  rw [decide_eq_true_eq]
  rintro rfl
  exact h hd

theorem takeWhile_of_not_mem (h : separator ∉ t) : t.takeWhile (· ≠ separator) = t :=
  List.takeWhile_eq_self_iff.2 (all_ne_of_not_mem h)

theorem dropWhile_of_not_mem (h : separator ∉ t) : t.dropWhile (· ≠ separator) = [] :=
  List.dropWhile_eq_nil_iff.2 (all_ne_of_not_mem h)

/-- What is left from a separator on begins with it. -/
theorem dropWhile_ne_cases (separator : Char) (t : Text) :
    t.dropWhile (· ≠ separator) = [] ∨ ∃ u, t.dropWhile (· ≠ separator) = separator :: u := by
  cases h : t.dropWhile (· ≠ separator) with
  | nil => exact .inl rfl
  | cons c u =>
    have hc := List.head?_dropWhile_not (· ≠ separator) t
    rw [h] at hc
    simp only [List.head?_cons, decide_eq_false_iff_not, not_not] at hc
    exact .inr ⟨u, by rw [hc]⟩

/-- Cutting at the first separator, or nowhere if there is none. -/
theorem splitFirst?_getD (separator : Char) (t : Text) :
    (splitFirst? separator t).getD (t, []) = (t.takeWhile (· ≠ separator), (t.dropWhile (· ≠ separator)).tail) := by
  cases h : splitFirst? separator t with
  | none =>
    have hno := splitFirst?_eq_none_iff.1 h
    rw [takeWhile_of_not_mem hno, dropWhile_of_not_mem hno]
    rfl
  | some parts =>
    obtain ⟨before, after⟩ := parts
    obtain ⟨hbefore, rfl⟩ := splitFirst?_eq_some_iff.1 h
    have hall := all_ne_of_not_mem hbefore
    rw [List.takeWhile_append_of_pos hall, List.dropWhile_append_of_pos hall]
    simp

theorem split_fst (separator : Char) (t : Text) : (split separator t).1 = t.takeWhile (· ≠ separator) := by
  induction t with
  | nil => rfl
  | cons c t ih =>
    rw [split]
    by_cases hc : c = separator
    · simp [hc]
    · simp [hc, ih]

/-- Dropping other characters at the end does not change how often a character stands in a text. -/
theorem count_dropTrailing {p : Char → Bool} {c : Char} (hc : p c = false) (t : Text) :
    (dropTrailing p t).count c = t.count c := by
  have hdropped : (t.reverse.takeWhile p).reverse.count c = 0 := by
    apply List.count_eq_zero_of_not_mem
    intro hmem
    have hp := List.mem_takeWhile_imp (List.mem_reverse.1 hmem)
    rw [hc] at hp
    cases hp
  have hcount := congrArg (List.count c) (dropTrailing_append p t)
  rwa [List.count_append, hdropped, Nat.add_zero] at hcount

end Text

namespace Numeral

open Text

/-- What a pattern asks for by its characters. The currency sign is at its start. What stands before the
point is the integer part, and its zeros count up to the first comma; of the zeros behind the point, those up to
the first bracket are always shown. -/
structure IsReading (pattern : Text) (n : Numeral) : Prop where
  currencyGap : n.currencyGap = if pattern.head? = some '$' then some (pattern.tail.takeWhile isBlank) else none
  grouped : n.grouped = true ↔ ',' ∈ pattern.takeWhile (· ≠ '.')
  leastDigits : n.leastDigits = ((pattern.takeWhile (· ≠ '.')).takeWhile (· ≠ ',')).count '0'
  fixedPlaces : n.fixedPlaces = ((pattern.dropWhile (· ≠ '.')).takeWhile (· ≠ '[')).count '0'
  optionalPlaces : n.optionalPlaces = ((pattern.dropWhile (· ≠ '.')).dropWhile (· ≠ '[')).count '0'

theorem currencyGap_ofText (pattern : Text) :
    (ofText pattern).currencyGap =
      if pattern.head? = some '$' then some (pattern.tail.takeWhile isBlank) else none := by
  have hsplit : (ofText pattern).currencyGap = (splitCurrency pattern).1 := rfl
  rw [hsplit]
  unfold splitCurrency
  split
  · rfl
  · next hno =>
    rw [if_neg]
    intro hhead
    obtain ⟨t, rfl⟩ := List.head?_eq_some_iff.1 hhead
    exact hno t rfl

/-- Only a currency sign and blanks are taken off a pattern. -/
theorem exists_sign_append (pattern : Text) :
    ∃ sign, pattern = sign ++ (splitCurrency pattern).2 ∧ ∀ c ∈ sign, c = '$' ∨ isBlank c = true := by
  unfold splitCurrency
  split
  · next t =>
    refine ⟨'$' :: t.takeWhile isBlank, ?_, ?_⟩
    · rw [List.cons_append, List.takeWhile_append_dropWhile]
    · exact List.forall_mem_cons.2 ⟨.inl rfl, fun c hc => .inr (List.mem_takeWhile_imp hc)⟩
  · exact ⟨[], rfl, List.forall_mem_nil _⟩

/-- What is read of the pieces that the rest of a pattern is cut into. -/
theorem ofText_eq (pattern : Text) :
    ofText pattern =
      let body := (splitCurrency pattern).2
      let decimals := (body.dropWhile (· ≠ '.')).tail
      { currencyGap := (splitCurrency pattern).1
        grouped := (body.takeWhile (· ≠ '.')).contains ','
        leastDigits := ((body.takeWhile (· ≠ '.')).takeWhile (· ≠ ',')).count '0'
        fixedPlaces := (decimals.takeWhile (· ≠ '[')).count '0'
        optionalPlaces := (decimals.dropWhile (· ≠ '[')).tail.count '0' } := by
  simp only [ofText, splitFirst?_getD, split_fst, count_dropTrailing (p := (· = ']')) (c := '0') (by decide)]

theorem isReading_ofText (pattern : Text) : IsReading pattern (ofText pattern) := by
  obtain ⟨sign, hpattern, hsign⟩ := exists_sign_append pattern
  have hnot : ∀ c, c ≠ '$' → isBlank c = false → c ∉ sign := by
    intro c hc hblank hmem
    rcases hsign c hmem with rfl | hyes
    · exact hc rfl
    · rw [hblank] at hyes
      cases hyes
  have hpoint := all_ne_of_not_mem (hnot '.' (by decide) (by decide))
  have hcomma := hnot ',' (by decide) (by decide)
  have hzero := hnot '0' (by decide) (by decide)
  have hgap := currencyGap_ofText pattern
  rw [ofText_eq] at hgap ⊢
  generalize (splitCurrency pattern).2 = body at hpattern hgap ⊢
  have hbefore : pattern.takeWhile (· ≠ '.') = sign ++ body.takeWhile (· ≠ '.') := by
    rw [hpattern, List.takeWhile_append_of_pos hpoint]
  have hbehind : pattern.dropWhile (· ≠ '.') = body.dropWhile (· ≠ '.') := by
    rw [hpattern, List.dropWhile_append_of_pos hpoint]
  refine ⟨hgap, ?_, ?_, ?_, ?_⟩
  · rw [hbefore, List.contains_iff_mem, List.mem_append, or_iff_right hcomma]
  · rw [hbefore, List.takeWhile_append_of_pos (all_ne_of_not_mem hcomma), List.count_append,
      List.count_eq_zero_of_not_mem hzero, Nat.zero_add]
  -- The point and the bracket, which the pieces are without, are no zeros.
  · rw [hbehind]
    rcases dropWhile_ne_cases '.' body with h | ⟨u, h⟩
    · simp only [h, List.tail_nil]
    · simp only [h, List.tail_cons]
      rw [List.takeWhile_cons_of_pos (by decide), List.count_cons_of_ne (by decide)]
  · rw [hbehind]
    rcases dropWhile_ne_cases '.' body with h | ⟨u, h⟩
    · simp only [h, List.tail_nil, List.dropWhile_nil]
    · simp only [h, List.tail_cons]
      rw [List.dropWhile_cons_of_pos (by decide)]
      rcases dropWhile_ne_cases '[' u with h' | ⟨v, h'⟩
      · rw [h', List.tail_nil]
      · rw [h', List.tail_cons, List.count_cons_of_ne (by decide)]

end Numeral

end CellFormat
