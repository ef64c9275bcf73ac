import CellFormat.Text
/-!
# Positions between characters

A position counts bytes from the start of a text. `fromByte?` walks up to it over
the characters; here it is said without a walk what is found. At a position
between two characters it is the text that is left behind a piece of that many
bytes (`fromByte?_eq_some_iff`), and at all others, those past the end and those
inside a character, it is nothing (`fromByte?_eq_none_iff`). A reader of the text
from a position on inherits both.
-/

namespace CellFormat.Text

/-- The position is behind the first byte of a character and in front of its last. -/
def InsideCharacter (t : Text) (i : Nat) : Prop :=
  ∃ (before : Text) (c : Char) (after : Text), t = before ++ c :: after ∧ before.bytes < i ∧
    i < before.bytes + c.utf8Size

theorem not_insideCharacter_nil (i : Nat) : ¬ InsideCharacter [] i := by
  rintro ⟨before, c, after, h, -⟩
  simp at h

theorem insideCharacter_cons_iff {c : Char} {t : Text} {i : Nat} :
    InsideCharacter (c :: t) i ↔
      (0 < i ∧ i < c.utf8Size) ∨ (c.utf8Size ≤ i ∧ InsideCharacter t (i - c.utf8Size)) := by
  constructor
  · rintro ⟨before, b, after, h, hlow, hhigh⟩
    rcases before with _ | ⟨c', before⟩
    · obtain ⟨rfl, rfl⟩ : c = b ∧ t = after := by simpa using h
      rw [bytes_nil] at hlow hhigh
      exact .inl ⟨hlow, by omega⟩
    · obtain ⟨rfl, rfl⟩ : c = c' ∧ t = before ++ b :: after := by simpa using h
      rw [bytes_cons] at hlow hhigh
      exact .inr ⟨by omega, before, b, after, rfl, by omega, by omega⟩
  · rintro (⟨hlow, hhigh⟩ | ⟨hle, before, b, after, rfl, hlow, hhigh⟩)
    · exact ⟨[], c, t, rfl, hlow, by rwa [bytes_nil, Nat.zero_add]⟩
    · refine ⟨c :: before, b, after, rfl, ?_, ?_⟩ <;> rw [bytes_cons] <;> omega

theorem fromByte?_eq_some_iff {t rest : Text} {i : Nat} :
    t.fromByte? i = some rest ↔ ∃ before : Text, t = before ++ rest ∧ before.bytes = i := by
  constructor
  · intro h
    obtain ⟨before, rfl⟩ := suffix_of_fromByte? h
    have hbytes := bytes_of_fromByte? h
    rw [bytes_append] at hbytes
    exact ⟨before, rfl, by omega⟩
  · rintro ⟨before, rfl, rfl⟩
    exact fromByte?_append before rest

theorem fromByte?_eq_none_iff {t : Text} {i : Nat} :
    t.fromByte? i = none ↔ t.bytes < i ∨ t.InsideCharacter i := by
  induction t generalizing i with
  | nil => cases i <;> simp [fromByte?, not_insideCharacter_nil]
  | cons c t ih =>
    have hpos := c.utf8Size_pos
    cases i with
    | zero => simp [insideCharacter_cons_iff, Nat.ne_of_gt hpos]
    | succ i =>
      rw [fromByte?, bytes_cons, insideCharacter_cons_iff]
      split
      · next hle =>
        rw [ih]
        constructor
        · rintro (hpast | hin)
          · exact .inl (by omega)
          · exact .inr (.inr ⟨hle, hin⟩)
        · rintro (hpast | ⟨-, hlt⟩ | ⟨-, hin⟩)
          · exact .inl (by omega)
          · omega
          · exact .inr hin
      · next hlt => exact ⟨fun _ => .inr (.inl ⟨by omega, by omega⟩), fun _ => rfl⟩

/-! ## What is read at a position -/

section

variable {α : Type} {read : Text → Option α} {t : Text} {i : Nat}

theorem bind_fromByte?_eq_some_iff {x : α} :
    (t.fromByte? i).bind read = some x ↔
      ∃ before rest : Text, t = before ++ rest ∧ before.bytes = i ∧ read rest = some x := by
  rw [Option.bind_eq_some_iff]
  constructor
  · rintro ⟨rest, hrest, hread⟩
    obtain ⟨before, ht, hi⟩ := fromByte?_eq_some_iff.1 hrest
    exact ⟨before, rest, ht, hi, hread⟩
  · rintro ⟨before, rest, ht, hi, hread⟩
    exact ⟨rest, fromByte?_eq_some_iff.2 ⟨before, ht, hi⟩, hread⟩

theorem bind_fromByte?_eq_none_iff :
    (t.fromByte? i).bind read = none ↔
      t.bytes < i ∨ t.InsideCharacter i ∨
        ∃ before rest : Text, t = before ++ rest ∧ before.bytes = i ∧ read rest = none := by
  rw [Option.bind_eq_none_iff, ← or_assoc, ← fromByte?_eq_none_iff]
  constructor
  · intro h
    cases hrest : t.fromByte? i with
    | none => exact .inl rfl
    | some rest =>
      obtain ⟨before, ht, hi⟩ := fromByte?_eq_some_iff.1 hrest
      exact .inr ⟨before, rest, ht, hi, h rest hrest⟩
  · rintro (hout | ⟨before, rest, ht, hi, hread⟩) rest' hrest'
    · rw [hout] at hrest'
      cases hrest'
    · cases (fromByte?_eq_some_iff.2 ⟨before, ht, hi⟩).symm.trans hrest'
      exact hread

end

end CellFormat.Text
