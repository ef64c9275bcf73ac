import CellFormat.Dialect.Standard
import CellFormat.Proofs.Dialect.Quoting
import CellFormat.Proofs.Text.Positions
/-!
# Regions in apostrophes

A region is recognized by pairing apostrophes from the left, so in a run of them
it is the odd one that closes. `Quotes` says which stretch of a pattern that is
without pairing anything: the text with its apostrophes doubled between two more,
if no further one follows, or behind a single one up to the end of the pattern.

`region?_eq_some_iff`: these stretches are the regions. So `datepicker` reads
back what was quoted, at any position, and takes for a region only what was
quoted or was never closed (`regions_of_datepicker`).
-/

namespace CellFormat

namespace Quoting.Apostrophe

/-- The stretch `w` in front of `rest` stands for `value`: in apostrophes, or behind a single one that is
never closed. -/
def Quotes (w value rest : Text) : Prop :=
  (w = '\'' :: double value ++ ['\''] ∧ '\'' ∉ rest.head?) ∨ (w = '\'' :: double value ∧ rest = [])

theorem bytes_mark (t : Text) : Text.bytes ('\'' :: t) = t.bytes + 1 := by
  have hmark : '\''.utf8Size = 1 := by decide
  rw [Text.bytes_cons, hmark, Nat.add_comm]

theorem Quotes.cons {w value rest : Text} (c : Char) (h : Quotes ('\'' :: w) value rest) :
    Quotes ('\'' :: ((if c = '\'' then ['\'', '\''] else [c]) ++ w)) (c :: value) rest := by
  rcases h with ⟨hw, hrest⟩ | ⟨hw, hrest⟩
  · rw [List.cons_append, List.cons.injEq] at hw
    exact .inl ⟨by rw [double_cons, hw.2, List.cons_append, List.append_assoc], hrest⟩
  · rw [List.cons.injEq] at hw
    exact .inr ⟨by rw [double_cons, hw.2], hrest⟩

/-- What is read behind an opening apostrophe goes up to the closing one or to the end. -/
theorem exists_append_body (t : Text) :
    ∃ w rest, t = w ++ rest ∧ w.bytes = (body t).bytes ∧ Quotes ('\'' :: w) (body t).value rest := by
  fun_induction body t with
  | case1 => exact ⟨[], [], rfl, rfl, .inr ⟨rfl, rfl⟩⟩
  | case2 rest r ih =>
    obtain ⟨w, u, hw, hb, hq⟩ := ih
    exact ⟨'\'' :: '\'' :: w, u, by rw [hw]; rfl, by rw [bytes_mark, bytes_mark, hb], hq.cons '\''⟩
  | case3 rest hrest =>
    refine ⟨['\''], rest, rfl, rfl, .inl ⟨rfl, fun hmark => ?_⟩⟩
    obtain ⟨u, rfl⟩ := List.head?_eq_some_iff.1 hmark
    exact hrest u rfl
  | case4 c rest _ hc r ih =>
    obtain ⟨w, u, hw, hb, hq⟩ := ih
    have hcons := hq.cons c
    rw [if_neg hc] at hcons
    exact ⟨c :: w, u, by rw [hw]; rfl, by rw [Text.bytes_cons, hb], hcons⟩

theorem region?_of_quotes {w value rest : Text} (h : Quotes w value rest) :
    region? (w ++ rest) = some { value, bytes := w.bytes } := by
  rcases h with ⟨rfl, hrest⟩ | ⟨rfl, rfl⟩
  · exact region?_append value hrest
  · rw [List.cons_append, region?, body_double_append, bytes_mark]
    simp [body]

theorem region?_eq_some_iff {t : Text} {r : Region} :
    region? t = some r ↔ ∃ w rest, t = w ++ rest ∧ w.bytes = r.bytes ∧ Quotes w r.value rest := by
  constructor
  · intro h
    unfold region? at h
    split at h
    · next u =>
      cases h
      obtain ⟨w, rest, hw, hb, hq⟩ := exists_append_body u
      exact ⟨'\'' :: w, rest, by rw [hw]; rfl, by rw [bytes_mark, hb], hq⟩
    · cases h
  · rintro ⟨w, rest, rfl, hb, hq⟩
    rw [region?_of_quotes hq, hb]

end Quoting.Apostrophe

namespace Dialect

open Quoting Apostrophe

/-- Every region takes up its apostrophe at least. -/
theorem datepicker_readRegion?_iff {p : Text} {i : Nat} {r : Region} :
    datepicker.readRegion? p i = some r ↔ (p.fromByte? i).bind region? = some r := by
  have hregion : datepicker.recognize p i = (p.fromByte? i).bind region? := rfl
  rw [readRegion?, hregion, Option.filter_eq_some_iff, and_iff_left_iff_imp]
  intro h
  obtain ⟨t, -, ht⟩ := Option.bind_eq_some_iff.1 h
  unfold region? at ht
  split at ht
  · cases ht
    exact decide_eq_true (Nat.succ_pos _)
  · cases ht

/-- A text that was put in apostrophes is read back behind any other, if no further apostrophe follows. And
what is read as a region of a pattern is a stretch of it, from one place between characters to another, that
holds the text in apostrophes, or, only at the end of the pattern, behind a single one. -/
theorem regions_of_datepicker :
    (∀ u t s : Text, '\'' ∉ s.head? →
      datepicker.readRegion? (u ++ ('\'' :: double t ++ ['\''] ++ s)) u.bytes =
        some { value := t, bytes := Text.bytes ('\'' :: double t ++ ['\'']) }) ∧
    ∀ (p : Text) (i : Nat) (r : Region), datepicker.readRegion? p i = some r ↔
      ∃ before w rest : Text, p = before ++ (w ++ rest) ∧ before.bytes = i ∧ w.bytes = r.bytes ∧
        ((w = '\'' :: double r.value ++ ['\''] ∧ '\'' ∉ rest.head?) ∨
          (w = '\'' :: double r.value ∧ rest = [])) := by
  constructor
  · intro u t s hs
    rw [datepicker_readRegion?_iff, Text.fromByte?_append, Option.bind_some]
    exact region?_append t hs
  · intro p i r
    rw [datepicker_readRegion?_iff, Text.bind_fromByte?_eq_some_iff]
    constructor
    · rintro ⟨before, t, hp, hi, ht⟩
      obtain ⟨w, rest, rfl, hb, hq⟩ := region?_eq_some_iff.1 ht
      exact ⟨before, w, rest, hp, hi, hb, hq⟩
    · rintro ⟨before, w, rest, hp, hi, hb, hq⟩
      exact ⟨before, w ++ rest, hp, hi, region?_eq_some_iff.2 ⟨w, rest, rfl, hb, hq⟩⟩

/-- Behind a letter of two bytes: a text with an apostrophe, and one that is never closed. -/
theorem regions_of_datepicker_doubled :
    '\'' ∉ " yy".toList.head? ∧
      datepicker.readRegion? "é'can''t' yy".toList 2 = some { value := "can't".toList, bytes := 8 } ∧
      datepicker.readRegion? "é'''d".toList 2 = some { value := "'d".toList, bytes := 4 } :=
  ⟨by decide, regions_of_datepicker.1 "é".toList "can't".toList " yy".toList (by decide),
    (regions_of_datepicker.2 _ _ _).2
      ⟨"é".toList, "'''d".toList, [], by decide, by decide, by decide, .inr (by decide)⟩⟩

end Dialect

end CellFormat
