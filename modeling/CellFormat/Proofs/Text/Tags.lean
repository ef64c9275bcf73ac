import CellFormat.Text.Markup
/-!
# The tags of a text

`tags` lists the tags of a text from the left, and `tag?_eq_some_iff` says what
counts as one: brackets around at least one character, none of them a closing
bracket.

Removing the tags of a text does not make it safe to put other tags behind it.
An opening bracket that is never closed stays, and takes up all that follows it
through the next closing bracket (`IsTag.tags_stripTags_append`). `unclosed` is the
part of the text from that bracket on.
-/

namespace CellFormat.Markup

/-! ## Reading tags -/

/-- What stands between the brackets of a tag, from after the opening one, and the text after the
tag; none if there is no tag. -/
def tag? : Text → Option (Text × Text)
  | [] => none
  | c :: t => if c = '>' then none else Text.splitFirst? '>' (c :: t)

theorem tag?_eq_some_iff {t inside rest : Text} :
    tag? t = some (inside, rest) ↔ inside ≠ [] ∧ '>' ∉ inside ∧ t = inside ++ '>' :: rest := by
  cases t with
  | nil => simp [tag?]
  | cons c t =>
    rw [tag?]
    by_cases hc : c = '>'
    · rw [if_pos hc, hc]
      cases inside <;> simp +contextual [eq_comm]
    · rw [if_neg hc, Text.splitFirst?_eq_some_iff]
      cases inside <;> simp [hc]

theorem tag?_eq_none_iff {t : Text} : tag? t = none ↔ '>' ∉ t ∨ t.head? = some '>' := by
  cases t with
  | nil => simp [tag?]
  | cons c t =>
    rw [tag?]
    by_cases hc : c = '>'
    · simp [hc]
    · rw [if_neg hc, Text.splitFirst?_eq_none_iff]
      simp [hc]

theorem afterTag?_eq (t : Text) : afterTag? t = (tag? t).map (·.2) := by
  cases t with
  | nil => rfl
  | cons c t =>
    rw [afterTag?, tag?]
    by_cases hc : c = '>'
    · rw [if_pos hc, if_pos hc, Option.map_none]
    · rw [if_neg hc, if_neg hc, Text.splitFirst?, if_neg hc, Option.map_map]
      rfl

theorem eq_append_of_afterTag? {t rest : Text} (h : afterTag? t = some rest) :
    ∃ inside, t = inside ++ '>' :: rest := by
  rw [afterTag?_eq] at h
  obtain ⟨⟨inside, rest⟩, htag, rfl⟩ := Option.map_eq_some_iff.1 h
  exact ⟨inside, (tag?_eq_some_iff.1 htag).2.2⟩

theorem afterTag?_eq_none_iff {t : Text} : afterTag? t = none ↔ '>' ∉ t ∨ t.head? = some '>' := by
  rw [afterTag?_eq, Option.map_eq_none_iff, tag?_eq_none_iff]

/-- Brackets around at least one character, none of them a closing bracket. -/
def IsTag (w : Text) : Prop := ∃ inside, inside ≠ [] ∧ '>' ∉ inside ∧ w = '<' :: inside ++ ['>']

instance : DecidablePred IsTag := fun w =>
  decidable_of_iff (w.tail.dropLast ≠ [] ∧ '>' ∉ w.tail.dropLast ∧ w = '<' :: w.tail.dropLast ++ ['>']) <| by
    constructor
    · intro h
      exact ⟨_, h⟩
    · rintro ⟨inside, hne, hclose, rfl⟩
      simp [hne, hclose]

/-- The tags of a text. Where an opening bracket begins no tag, reading goes on behind it. -/
def tags : Text → List Text
  | [] => []
  | c :: t =>
    if c = '<' then
      match _ : tag? t with
      | some (inside, rest) => ('<' :: inside ++ ['>']) :: tags rest
      | none => tags t
    else tags t
termination_by t => t.length
decreasing_by
  · obtain ⟨-, -, rfl⟩ := tag?_eq_some_iff.1 ‹_›
    simp only [List.length_cons, List.length_append]
    omega
  · simp
  · simp

@[simp] theorem tags_nil : tags [] = [] := by rw [tags]

theorem tags_cons_of_ne {c : Char} (hc : c ≠ '<') (t : Text) : tags (c :: t) = tags t := by
  rw [tags, if_neg hc]

theorem tags_of_tag?_none {t : Text} (h : tag? t = none) : tags ('<' :: t) = tags t := by
  rw [tags, if_pos rfl]
  split
  · simp_all
  · rfl

/-- A tag in front of a text is its first tag. -/
theorem IsTag.tags_append {w : Text} (hw : IsTag w) (rest : Text) : tags (w ++ rest) = w :: tags rest := by
  obtain ⟨inside, hne, hclose, rfl⟩ := hw
  have h : tag? (inside ++ '>' :: rest) = some (inside, rest) := tag?_eq_some_iff.2 ⟨hne, hclose, rfl⟩
  rw [List.append_assoc, List.cons_append, List.singleton_append, tags, if_pos rfl]
  split
  · next h' =>
    rw [h] at h'
    cases h'
    rfl
  · simp_all

theorem tags_flatten_append {ws : List Text} (h : ∀ w ∈ ws, IsTag w) (rest : Text) :
    tags (ws.flatten ++ rest) = ws ++ tags rest := by
  induction ws with
  | nil => rfl
  | cons w ws ih =>
    obtain ⟨hw, hws⟩ := List.forall_mem_cons.1 h
    rw [List.flatten_cons, List.append_assoc, hw.tags_append, ih hws, List.cons_append]

/-! ## Brackets that are not closed -/

/-- The text from the first opening bracket on that no closing one follows; nothing if there is no
such bracket. -/
def unclosed : Text → Text
  | [] => []
  | c :: t => if c = '<' ∧ '>' ∉ t then c :: t else unclosed t

theorem unclosed_eq_nil_iff {t : Text} :
    unclosed t = [] ↔ ∀ before after, t = before ++ '<' :: after → '>' ∈ after := by
  induction t with
  | nil => simp [unclosed]
  | cons c t ih =>
    rw [unclosed]
    by_cases h : c = '<' ∧ '>' ∉ t
    · rw [if_pos h]
      obtain ⟨rfl, ht⟩ := h
      simp only [reduceCtorEq, false_iff]
      intro hall
      exact ht (hall [] t rfl)
    · rw [if_neg h, ih]
      constructor
      · intro hall before after he
        cases before with
        | nil =>
          cases he
          exact Decidable.byContradiction fun hm => h ⟨rfl, hm⟩
        | cons b before =>
          cases he
          exact hall before after rfl
      · intro hall before after he
        exact hall (c :: before) after (by rw [he, List.cons_append])

/-- Brackets in front of a closing one are closed. -/
theorem unclosed_append_close (t rest : Text) : unclosed (t ++ '>' :: rest) = unclosed rest := by
  induction t with
  | nil => simp [unclosed]
  | cons c t ih => simp [unclosed, ih]

/-! ## Removing tags -/

theorem stripTags_cons_of_ne {c : Char} (hc : c ≠ '<') (t : Text) : stripTags (c :: t) = c :: stripTags t := by
  rw [stripTags, if_neg hc]

theorem stripTags_of_not_mem {t : Text} (h : '>' ∉ t) : stripTags t = t := by
  fun_induction stripTags t with
  | case1 => rfl
  | case2 t rest ht ih =>
    -- A tag would hold a closing bracket.
    obtain ⟨inside, rfl⟩ := eq_append_of_afterTag? ht
    simp at h
  | case3 t ht ih => rw [ih (fun hm => h (List.mem_cons_of_mem '<' hm))]
  | case4 c t hc ih => rw [ih (fun hm => h (List.mem_cons_of_mem c hm))]

/-- A tag that follows a text without tags begins at the bracket that is not closed in the text, if
there is one. -/
theorem IsTag.tags_stripTags_append {w : Text} (hw : IsTag w) (t rest : Text) :
    tags (stripTags t ++ (w ++ rest)) = (unclosed t ++ w) :: tags rest := by
  fun_induction stripTags t with
  | case1 => exact hw.tags_append rest
  | case2 t after ht ih =>
    obtain ⟨v, rfl⟩ := eq_append_of_afterTag? ht
    rw [← List.cons_append, unclosed_append_close, List.cons_append, tags_cons_of_ne (by decide), ih]
  | case3 t ht ih =>
    rcases afterTag?_eq_none_iff.1 ht with ht | ht
    -- The bracket is not closed, and takes up the rest of the text and the tag behind it.
    · obtain ⟨inside, -, hclose, rfl⟩ := hw
      have hlong : IsTag ('<' :: t ++ ('<' :: inside ++ ['>'])) :=
        ⟨t ++ '<' :: inside, by simp, by simp [ht, hclose], by simp⟩
      rw [stripTags_of_not_mem ht, unclosed, if_pos ⟨rfl, ht⟩, ← List.append_assoc]
      exact hlong.tags_append rest
    -- Brackets with nothing between them are no tag.
    · obtain ⟨t, rfl⟩ := List.head?_eq_some_iff.1 ht
      rw [unclosed, if_neg (by simp), ← ih, stripTags_cons_of_ne (by decide)]
      exact tags_of_tag?_none (tag?_eq_none_iff.2 (.inr rfl))
  | case4 c t hc ih =>
    rw [unclosed, if_neg (fun h => hc h.1), List.cons_append, tags_cons_of_ne hc, ih]

end CellFormat.Markup
