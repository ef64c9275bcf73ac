import CellFormat.Dialect.Quoting
/-!
# Quoting rules are undone by their recognizers

What each rule writes, its recognizer takes for a region of the text that was
quoted, with the rest of the pattern behind it. That rest may be anything
behind a closing bracket or a pair of percent signs, but behind a closing
apostrophe it must not begin with another: the two would count as a doubled
one (`Apostrophe.body_append`).
-/

namespace CellFormat

namespace Quoting

theorem not_holdsReserved_iff {t reserved : Text} : ¬ holdsReserved t reserved = true ↔ ∀ c ∈ t, c ∉ reserved := by
  simp [holdsReserved]

/-- Text that is quoted only where it has to be begins with the mark or without a reserved character. -/
theorem head_of_quoted {mark : Char} {t reserved : Text} (ht : t ≠ []) (u : Text) :
    ∃ c v, (if holdsReserved t reserved = true then mark :: u else t) = c :: v ∧ (c = mark ∨ c ∉ reserved) := by
  by_cases hq : holdsReserved t reserved = true
  · rw [if_pos hq]
    exact ⟨mark, u, rfl, .inl rfl⟩
  · obtain ⟨c, v, rfl⟩ := List.exists_cons_of_ne_nil ht
    rw [if_neg hq]
    exact ⟨c, v, rfl, .inr (not_holdsReserved_iff.1 hq c List.mem_cons_self)⟩

/-! ## Brackets -/

namespace Bracket

theorem region?_of_ne {c : Char} (hc : c ≠ '[') (t : Text) : region? (c :: t) = none := by
  unfold region?
  split
  · simp_all
  · rfl

/-- A region needs an opening bracket and a closing one. -/
theorem mem_of_region? {t : Text} {r : Region} (h : region? t = some r) : '[' ∈ t ∧ ']' ∈ t := by
  unfold region? at h
  split at h
  · obtain ⟨⟨before, after⟩, hs, -⟩ := Option.map_eq_some_iff.1 h
    simp [Text.eq_append_of_splitFirst? hs]
  · cases h

theorem region?_append {t : Text} (h : ']' ∉ t) (rest : Text) :
    region? ('[' :: t ++ [']'] ++ rest) = some { value := t, bytes := Text.bytes ('[' :: t ++ [']']) } := by
  have hb : Text.bytes ('[' :: t ++ [']']) = t.bytes + 2 := by
    rw [List.cons_append, Text.bytes_cons, Text.bytes_append]
    exact Nat.add_comm 1 _
  rw [List.append_assoc, List.cons_append, List.singleton_append, region?, Text.splitFirst?_append h, hb]
  rfl

theorem not_mem_soften (t : Text) : '[' ∉ soften t ∧ ']' ∉ soften t := by
  constructor <;>
  · intro h
    obtain ⟨c, -, hc⟩ := List.mem_map.1 h
    split at hc
    · simp at hc
    · split at hc <;> simp_all

theorem soften_of_not_mem {t : Text} (ho : '[' ∉ t) (hc : ']' ∉ t) : soften t = t := by
  induction t with
  | nil => rfl
  | cons c t ih =>
    simp only [List.mem_cons, not_or] at ho hc
    rw [soften, List.map_cons, if_neg (Ne.symm ho.1), if_neg (Ne.symm hc.1)]
    exact congrArg (c :: ·) (ih ho.2 hc.2)

theorem soften_soften (t : Text) : soften (soften t) = soften t :=
  soften_of_not_mem (not_mem_soften t).1 (not_mem_soften t).2

theorem soften_ne_nil {t : Text} (h : t ≠ []) : soften t ≠ [] := by
  simpa [soften] using h

end Bracket

/-! ## Apostrophes -/

namespace Apostrophe

theorem double_cons (c : Char) (t : Text) : double (c :: t) = (if c = '\'' then ['\'', '\''] else [c]) ++ double t := rfl

theorem double_append (t u : Text) : double (t ++ u) = double t ++ double u := List.flatMap_append

/-- What a literal is read as in front of another one: if both are quoted, an apostrophe comes between them. -/
def touching (reserved t u : Text) : Text :=
  if holdsReserved t reserved = true ∧ holdsReserved u reserved = true then t ++ ['\''] else t

theorem region?_of_ne {c : Char} (hc : c ≠ '\'') (t : Text) : region? (c :: t) = none := by
  unfold region?
  split
  · simp_all
  · rfl

theorem body_of_ne {c : Char} (hc : c ≠ '\'') (t : Text) :
    body (c :: t) = { value := c :: (body t).value, bytes := c.utf8Size + (body t).bytes } := by
  rw [body]
  · rintro _ rfl
    exact absurd rfl hc
  · exact hc

theorem body_close {t : Text} (h : '\'' ∉ t.head?) : body ('\'' :: t) = { value := [], bytes := 1 } := by
  rw [body]
  rintro u rfl
  exact h rfl

/-- Doubled text goes on with whatever the text behind it is read as. -/
theorem body_double_append (t rest : Text) :
    body (double t ++ rest) = { value := t ++ (body rest).value, bytes := (double t).bytes + (body rest).bytes } := by
  induction t with
  | nil => simp [double]
  | cons c t ih =>
    by_cases hc : c = '\''
    · have hb : Text.bytes ('\'' :: '\'' :: double t) = (double t).bytes + 2 := by
        rw [Text.bytes_cons, Text.bytes_cons, ← Nat.add_assoc]
        exact Nat.add_comm 2 _
      rw [double_cons, if_pos hc, hc]
      simp only [List.cons_append, List.nil_append, body, ih, hb, Nat.add_right_comm]
    · rw [double_cons, if_neg hc, List.append_assoc, List.singleton_append, body_of_ne hc, ih,
        List.singleton_append, Text.bytes_cons, Nat.add_assoc]
      rfl

/-- The text behind an opening apostrophe is read up to the closing one. -/
theorem body_append (t : Text) {rest : Text} (h : '\'' ∉ rest.head?) :
    body (double t ++ '\'' :: rest) = { value := t, bytes := (double t).bytes + 1 } := by
  rw [body_double_append, body_close h, List.append_nil]

theorem region?_append (t : Text) {rest : Text} (h : '\'' ∉ rest.head?) :
    region? ('\'' :: double t ++ ['\''] ++ rest) =
      some { value := t, bytes := Text.bytes ('\'' :: double t ++ ['\'']) } := by
  have hb : Text.bytes ('\'' :: double t ++ ['\'']) = (double t).bytes + 1 + 1 := by
    rw [List.cons_append, Text.bytes_cons, Text.bytes_append]
    exact Nat.add_comm 1 _
  rw [List.append_assoc, List.cons_append, List.singleton_append, region?, body_append t h, hb]

end Apostrophe

/-! ## Doubled percent signs -/

namespace Percent

theorem double_cons (c : Char) (t : Text) : double (c :: t) = (if c = '%' then ['%', '%'] else [c]) ++ double t := rfl

theorem region?_of_ne {c : Char} (hc : c ≠ '%') (t : Text) : region? (c :: t) = none := by
  unfold region?
  split
  · simp_all
  · rfl

theorem double_of_not_mem {t : Text} (h : '%' ∉ t) : double t = t := by
  induction t with
  | nil => rfl
  | cons c t ih =>
    simp only [List.mem_cons, not_or] at h
    rw [double_cons, if_neg (Ne.symm h.1), ih h.2, List.singleton_append]

/-- Where the percent sign alone is reserved, quoting is doubling. -/
theorem quote_eq_double (t : Text) : quote t ['%'] = double t := by
  unfold quote
  by_cases h : holdsReserved t ['%'] = true
  · rw [if_pos h]
  · rw [if_neg h, double_of_not_mem]
    intro hm
    exact not_holdsReserved_iff.1 h '%' hm (by simp)

end Percent

end Quoting

end CellFormat
