import CellFormat.Proofs.Text.Tags
/-!
# A text without its tags

Removing the tags of a text takes out the tags that `tags` lists, each of them
for a blank, and nothing else (`exists_cut_eq`). No tag comes up where one was
taken out: `tags_stripTags` finds none in what is left, and `tags_eq_nil_iff`
says that there is none then, wherever one looks for it. So removing tags again
changes nothing.
-/

namespace CellFormat.Markup

/-! ## Looking for tags -/

theorem tags_of_tag?_some {t inside rest : Text} (h : tag? t = some (inside, rest)) :
    tags ('<' :: t) = ('<' :: inside ++ ['>']) :: tags rest := by
  obtain ⟨hne, hclose, rfl⟩ := tag?_eq_some_iff.1 h
  have htag : IsTag ('<' :: inside ++ ['>']) := ⟨inside, hne, hclose, rfl⟩
  rw [← htag.tags_append, List.append_assoc, List.cons_append, List.singleton_append]

/-- Reading from the left comes upon a tag if there is one anywhere. -/
theorem tags_append_ne_nil (before : Text) {w : Text} (hw : IsTag w) (after : Text) :
    tags (before ++ (w ++ after)) ≠ [] := by
  induction before with
  | nil =>
    rw [List.nil_append, hw.tags_append]
    exact List.cons_ne_nil _ _
  | cons c before ih =>
    rw [List.cons_append]
    by_cases hc : c = '<'
    · rw [hc]
      cases htag : tag? (before ++ (w ++ after)) with
      | none => rwa [tags_of_tag?_none htag]
      | some found =>
        rw [tags_of_tag?_some htag]
        exact List.cons_ne_nil _ _
    · rwa [tags_cons_of_ne hc]

theorem isTag_of_mem_tags {t w : Text} (h : w ∈ tags t) : IsTag w ∧ w <:+: t := by
  fun_induction tags t with
  | case1 => cases h
  | case2 t inside rest htag ih =>
    obtain ⟨hne, hclose, rfl⟩ := tag?_eq_some_iff.1 htag
    rcases List.mem_cons.1 h with rfl | h
    · exact ⟨⟨inside, hne, hclose, rfl⟩, [], rest, by simp⟩
    · obtain ⟨hw, before, after, rfl⟩ := ih h
      exact ⟨hw, '<' :: inside ++ '>' :: before, after, by simp⟩
  | case3 t htag ih =>
    obtain ⟨hw, hwithin⟩ := ih h
    exact ⟨hw, hwithin.trans (List.suffix_cons '<' t).isInfix⟩
  | case4 c t hc ih =>
    obtain ⟨hw, hwithin⟩ := ih h
    exact ⟨hw, hwithin.trans (List.suffix_cons c t).isInfix⟩

theorem tags_eq_nil_iff {t : Text} : tags t = [] ↔ ∀ w, IsTag w → ¬ w <:+: t := by
  constructor
  · rintro h w hw ⟨before, after, rfl⟩
    rw [List.append_assoc] at h
    exact tags_append_ne_nil before hw after h
  · intro h
    rw [List.eq_nil_iff_forall_not_mem]
    intro w hw
    obtain ⟨htag, hwithin⟩ := isTag_of_mem_tags hw
    exact h w htag hwithin

/-! ## Cutting tags out -/

/-- A text with tags cut out of it: what stands before the first of them, and each of them with what
stands behind it up to the next. -/
structure Cut where
  before : Text
  cuts : List ({w // IsTag w} × Text)

namespace Cut

/-- The text with all its tags. -/
def whole (k : Cut) : Text := k.before ++ k.cuts.flatMap fun (w, behind) => w.1 ++ behind

/-- The text with a blank in place of each tag that is cut out. -/
def blanked (k : Cut) : Text := k.before ++ k.cuts.flatMap fun (_, behind) => ' ' :: behind

/-- The tags that are cut out. -/
def tags (k : Cut) : List Text := k.cuts.map fun (w, _) => w.1

/-- A character in front of the text. -/
def cons (c : Char) (k : Cut) : Cut := { k with before := c :: k.before }

/-- A tag in front of the text. -/
def consTag (w : {w // IsTag w}) (k : Cut) : Cut := ⟨[], (w, k.before) :: k.cuts⟩

section
variable (c : Char) (w : {w // IsTag w}) (k : Cut)

@[simp] theorem whole_cons : (k.cons c).whole = c :: k.whole := rfl

@[simp] theorem blanked_cons : (k.cons c).blanked = c :: k.blanked := rfl

@[simp] theorem tags_cons : (k.cons c).tags = k.tags := rfl

@[simp] theorem whole_consTag : (k.consTag w).whole = w.1 ++ k.whole := by
  simp [consTag, whole]

@[simp] theorem blanked_consTag : (k.consTag w).blanked = ' ' :: k.blanked := by
  simp [consTag, blanked]

@[simp] theorem tags_consTag : (k.consTag w).tags = w.1 :: k.tags := rfl

end

theorem whole_eq_blanked {k : Cut} (h : k.tags = []) : k.whole = k.blanked := by
  have hcuts : k.cuts = [] := List.map_eq_nil_iff.1 h
  rw [whole, blanked, hcuts, List.flatMap_nil, List.flatMap_nil]

end Cut

/-- What is cut out of a text are its tags, and a blank is put in place of each. -/
theorem exists_cut_eq (t : Text) : ∃ k : Cut, k.whole = t ∧ k.blanked = stripTags t ∧ k.tags = tags t := by
  fun_induction stripTags t with
  | case1 => exact ⟨⟨[], []⟩, rfl, rfl, tags_nil.symm⟩
  | case2 t rest hrest ih =>
    obtain ⟨k, hwhole, hblanked, htags⟩ := ih
    rw [afterTag?_eq] at hrest
    obtain ⟨⟨inside, rest⟩, htag, rfl⟩ := Option.map_eq_some_iff.1 hrest
    obtain ⟨hne, hclose, rfl⟩ := tag?_eq_some_iff.1 htag
    refine ⟨k.consTag ⟨'<' :: inside ++ ['>'], inside, hne, hclose, rfl⟩, ?_, ?_, ?_⟩
    · rw [Cut.whole_consTag, hwhole]
      simp
    · rw [Cut.blanked_consTag, hblanked]
    · rw [Cut.tags_consTag, htags, tags_of_tag?_some htag]
  | case3 t hrest ih =>
    obtain ⟨k, hwhole, hblanked, htags⟩ := ih
    rw [afterTag?_eq, Option.map_eq_none_iff] at hrest
    refine ⟨k.cons '<', ?_, ?_, ?_⟩
    · rw [Cut.whole_cons, hwhole]
    · rw [Cut.blanked_cons, hblanked]
    · rw [Cut.tags_cons, htags, tags_of_tag?_none hrest]
  | case4 c t hc ih =>
    obtain ⟨k, hwhole, hblanked, htags⟩ := ih
    refine ⟨k.cons c, ?_, ?_, ?_⟩
    · rw [Cut.whole_cons, hwhole]
    · rw [Cut.blanked_cons, hblanked]
    · rw [Cut.tags_cons, htags, tags_cons_of_ne hc]

/-- Where no tag begins none begins after the others are gone: either there is no closing bracket
left, or it comes at once and stays. -/
theorem tag?_stripTags_eq_none {t : Text} (h : tag? t = none) : tag? (stripTags t) = none := by
  rcases tag?_eq_none_iff.1 h with hclose | hhead
  · rwa [stripTags_of_not_mem hclose]
  · obtain ⟨t, rfl⟩ := List.head?_eq_some_iff.1 hhead
    rw [stripTags_cons_of_ne (by decide), tag?_eq_none_iff]
    exact .inr rfl

theorem tags_stripTags (t : Text) : tags (stripTags t) = [] := by
  fun_induction stripTags t with
  | case1 => exact tags_nil
  | case2 t rest hrest ih => rw [tags_cons_of_ne (by decide), ih]
  | case3 t hrest ih =>
    rw [afterTag?_eq, Option.map_eq_none_iff] at hrest
    rw [tags_of_tag?_none (tag?_stripTags_eq_none hrest), ih]
  | case4 c t hc ih => rw [tags_cons_of_ne hc, ih]

theorem stripTags_eq_self {t : Text} (h : tags t = []) : stripTags t = t := by
  obtain ⟨k, hwhole, hblanked, htags⟩ := exists_cut_eq t
  rw [← hblanked, ← Cut.whole_eq_blanked (htags.trans h), hwhole]

end CellFormat.Markup
