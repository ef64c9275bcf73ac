import CellFormat.Proofs.Text.Stripping
import CellFormat.Table.Html
/-!
# The tags of a table with a text

A text is shown without its own tags, and nothing else is missing of it
(`display_without_tags`).

It is put into its table like this, but not escaped. `tags_ofPayload_text` says
what comes of that: the table has the tags of the template, except that a
bracket which the text leaves open takes the text behind it into the closing tag
of the cell. So a text keeps the tags around it exactly if it closes every
bracket that it opens.
-/

namespace CellFormat

open Markup

/-! ## The text of a cell -/

/-- The text that a cell is to show: its first header override, or where there is none, its own text. -/
inductive Cell.HasText (c : Cell) : Text → Prop where
  | override (h : HeaderOverride) (others : List HeaderOverride) :
      c.headerOverrides = some (h :: others) → HasText c h.header
  | own : c.headerOverrides = none ∨ c.headerOverrides = some [] → HasText c (c.text.getD [])

/-- Every cell has a text to show, and only one. -/
theorem Cell.hasText_iff {c : Cell} {t : Text} : c.HasText t ↔ c.shownText = t := by
  unfold shownText
  constructor
  · intro h
    cases h with
    | override h others hover => rw [hover]
    | own hnone => rcases hnone with hnone | hnone <;> rw [hnone]
  · rintro rfl
    cases hover : c.headerOverrides with
    | none => exact .own (.inl hover)
    | some hs =>
      cases hs with
      | nil => exact .own (.inr hover)
      | cons h others => exact .override h others hover

theorem Cell.display_of_text {c : Cell} {t : Text} (hk : c.kind = .text ∨ c.kind = .json) (ht : c.HasText t) :
    c.display = Display.text t := by
  rw [← hasText_iff.1 ht]
  rcases hk with hk | hk <;> rw [display, hk]

/-- The blank in place of a dash leaves no bracket open either. -/
theorem Display.text_eq_stripTags (t : Text) : ∃ u, text t = stripTags u ∧ unclosed u = unclosed t := by
  refine ⟨_, rfl, ?_⟩
  split
  · next h =>
    rw [h]
    decide
  · rfl

/-- There is no tag in what is shown of a text, so removing tags once more changes nothing. What is
missing are the tags of the text, and there is a blank in place of each of them. -/
theorem Cell.display_without_tags {c : Cell} {t : Text} (hk : c.kind = .text ∨ c.kind = .json) (ht : c.HasText t)
    (hdash : t ≠ ['-']) :
    (∀ w, IsTag w → ¬ w <:+: c.display) ∧ stripTags c.display = c.display ∧
      ∃ k : Cut, k.whole = t ∧ k.blanked = c.display ∧ k.tags = tags t := by
  have hdisplay : c.display = stripTags t := by
    rw [display_of_text hk ht, Display.text, if_neg hdash]
  rw [hdisplay]
  refine ⟨tags_eq_nil_iff.1 (tags_stripTags _), stripTags_eq_self (tags_stripTags _), ?_⟩
  obtain ⟨k, hwhole, hblanked, htags⟩ := exists_cut_eq t
  exact ⟨k, hwhole, hblanked, htags⟩

/-- A tag inside brackets, brackets with nothing between them and one that is not closed: in a cell's own
text, and in one that takes the place of it. -/
theorem Cell.display_without_tags_nested :
    let t : Text := "<a <b>>c</b><> < d".toList
    let own : Cell := { kind := .text, text := some t, headerOverrides := some [] }
    let overridden : Cell := { kind := .json, text := some "-".toList, headerOverrides := some [⟨t⟩, ⟨[]⟩] }
    own.HasText t ∧ overridden.HasText t ∧ t ≠ ['-'] ∧
      own.display = " >c <> < d".toList ∧ overridden.display = " >c <> < d".toList ∧
      (∃ k : Cut, k.whole = t ∧ k.blanked = own.display ∧ k.tags = ["<a <b>".toList, "</b>".toList]) ∧
      ∃ k : Cut, k.whole = t ∧ k.blanked = overridden.display ∧ k.tags = ["<a <b>".toList, "</b>".toList] := by
  intro t own overridden
  have hown : own.HasText t := .own (.inr rfl)
  have hoverridden : overridden.HasText t := .override ⟨t⟩ _ rfl
  have hdash : t ≠ ['-'] := by decide
  have htags : tags t = ["<a <b>".toList, "</b>".toList] := by with_unfolding_all decide
  obtain ⟨-, -, hcut⟩ := display_without_tags (.inl rfl) hown hdash
  obtain ⟨-, -, hcut'⟩ := display_without_tags (.inr rfl) hoverridden hdash
  rw [htags] at hcut hcut'
  exact ⟨hown, hoverridden, hdash, by with_unfolding_all decide, by with_unfolding_all decide, hcut, hcut'⟩

namespace Table

/-- The tags in front of a text. -/
def tagsBefore : List Text := ["<table class=\"text\">".toList, "<tr>".toList, "<td>".toList]

/-- The tags behind it. -/
def tagsBehind : List Text := ["</td>".toList, "</tr>".toList, "</table>".toList]

theorem isTag_template : ∀ w ∈ tagsBefore ++ tagsBehind, IsTag w := by decide

theorem single_text_eq (t : Text) : single "text".toList t = tagsBefore.flatten ++ (t ++ tagsBehind.flatten) := by
  rw [single, styled]
  simp only [element, List.append_assoc]
  rfl

theorem tags_single_stripTags (t : Text) :
    tags (single "text".toList (stripTags t)) =
      tagsBefore ++ (unclosed t ++ "</td>".toList) :: ["</tr>".toList, "</table>".toList] := by
  obtain ⟨hbefore, hbehind⟩ := List.forall_mem_append.1 isTag_template
  obtain ⟨hcell, hrest⟩ := List.forall_mem_cons.1 hbehind
  have htail := tags_flatten_append hrest []
  rw [List.append_nil, tags_nil, List.append_nil] at htail
  rw [single_text_eq, tags_flatten_append hbefore, tagsBehind, List.flatten_cons, hcell.tags_stripTags_append, htail]

theorem ofPayload_text {p : Payload} {t : Text} (hk : p.cell.kind = .text ∨ p.cell.kind = .json) (ht : p.cell.HasText t)
    (l : Language) : ofPayload p l = single "text".toList (Display.text t) := by
  have hd : p.display = Display.text t := Cell.display_of_text hk ht
  rcases hk with hk | hk <;> rw [ofPayload, hk, if_neg (by decide), hd, ofText]

/-- The tags of a table with a text are those of the template up to what the text leaves open. They
are those of the template if a closing bracket follows every opening one in the text, and only then. -/
theorem tags_ofPayload_text {p : Payload} {t : Text} (hk : p.cell.kind = .text ∨ p.cell.kind = .json)
    (ht : p.cell.HasText t) (l : Language) :
    tags (ofPayload p l) = tagsBefore ++ (unclosed t ++ "</td>".toList) :: ["</tr>".toList, "</table>".toList] ∧
    (tags (ofPayload p l) = tagsBefore ++ tagsBehind ↔ ∀ before after, t = before ++ '<' :: after → '>' ∈ after) := by
  obtain ⟨u, hu, hopen⟩ := Display.text_eq_stripTags t
  have htags := tags_single_stripTags u
  rw [← hu, ← ofPayload_text hk ht l, hopen] at htags
  refine ⟨htags, ?_⟩
  rw [htags, ← unclosed_eq_nil_iff, List.append_cancel_left_eq, tagsBehind, List.cons.injEq]
  simp

/-- A bracket that is left open takes the closing tag of the cell with it, so two texts can have
different tags around them. -/
theorem tags_ofPayload_open_bracket :
    tags (ofPayload (.ofText "a < b".toList) .english) =
      ["<table class=\"text\">".toList, "<tr>".toList, "<td>".toList, "< b</td>".toList, "</tr>".toList,
        "</table>".toList] ∧
    ¬ ∀ (p q : Payload) (l : Language), (p.cell.kind = .text ∨ p.cell.kind = .json) →
      (q.cell.kind = .text ∨ q.cell.kind = .json) → tags (ofPayload p l) = tags (ofPayload q l) := by
  refine ⟨by with_unfolding_all decide, fun h => ?_⟩
  have hsame := h (.ofText "a < b".toList) (.ofText "a b".toList) .english (.inl rfl) (.inl rfl)
  exact absurd hsame (by with_unfolding_all decide)

/-- Tags, brackets with nothing between them and one that is closed at the end of the text. -/
theorem tags_ofPayload_closed_brackets :
    let p := Payload.ofText "<b>x</b> <> a < b>".toList
    p.cell.kind = .text ∧ p.cell.HasText "<b>x</b> <> a < b>".toList ∧
      tags (ofPayload p .english) = tagsBefore ++ tagsBehind := by
  intro p
  have ht : p.cell.HasText "<b>x</b> <> a < b>".toList := .own (.inl rfl)
  refine ⟨rfl, ht, ?_⟩
  rw [(tags_ofPayload_text (.inl rfl) ht .english).1]
  with_unfolding_all decide

end Table

end CellFormat
