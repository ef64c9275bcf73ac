import CellFormat.Proofs.Json.Records
/-!
# The grammar of JSON

What a JSON value is (`IsValue`), whoever reads it: a word, a number, a string,
a list or an object, with blanks wherever they may stand. `Spells` says which
text the characters between quotes stand for; those with lone halves of
surrogate pairs stand for none.
-/

namespace CellFormat.Json

/-! ## Blanks -/

/-- Blanks only. -/
def IsBlanks (t : Text) : Prop := ∀ c ∈ t, c ∈ [' ', '\n', '\t', '\r']

theorem isBlanks_nil : IsBlanks [] := List.forall_mem_nil _

theorem skipBlanks_append {b : Text} (hb : IsBlanks b) (t : Text) : skipBlanks (b ++ t) = skipBlanks t := by
  refine List.dropWhile_append_of_pos fun c hc => ?_
  simpa [or_assoc] using hb c hc

/-! ## Strings -/

/-- Characters as they may stand between the quotes of a string. -/
inductive IsChars : Text → Prop
  | nil : IsChars []
  | plain {c : Char} {t : Text} (hquote : c ≠ '"') (hslash : c ≠ '\\') (hcontrol : ¬ c.toNat < 0x20)
      (ht : IsChars t) : IsChars (c :: t)
  | short {e : Char} {t : Text} (he : e ≠ 'u') (hshort : (shortEscape? e).isSome) (ht : IsChars t) :
      IsChars ('\\' :: e :: t)
  | unicode {a b c d : Char} {t : Text} (hquad : (hexQuad? a b c d).isSome) (ht : IsChars t) :
      IsChars ('\\' :: 'u' :: a :: b :: c :: d :: t)

/-- A half of a surrogate pair, which stands for no character by itself. -/
abbrev IsHalf (n : Nat) : Prop := 0xD800 ≤ n ∧ n ≤ 0xDFFF

/-- The first half of a surrogate pair. -/
abbrev IsHighHalf (n : Nat) : Prop := 0xD800 ≤ n ∧ n ≤ 0xDBFF

/-- The second half of a surrogate pair. -/
abbrev IsLowHalf (n : Nat) : Prop := 0xDC00 ≤ n ∧ n ≤ 0xDFFF

/-- The text that characters between quotes stand for. -/
inductive Spells : Text → Text → Prop
  | nil : Spells [] []
  | plain {c : Char} {t s : Text} (hquote : c ≠ '"') (hslash : c ≠ '\\') (hcontrol : ¬ c.toNat < 0x20)
      (ht : Spells t s) : Spells (c :: t) (c :: s)
  | short {e c : Char} {t s : Text} (he : e ≠ 'u') (hshort : shortEscape? e = some c) (ht : Spells t s) :
      Spells ('\\' :: e :: t) (c :: s)
  | unicode {a b c d : Char} {n : Nat} {t s : Text} (hquad : hexQuad? a b c d = some n) (hn : ¬ IsHalf n)
      (ht : Spells t s) : Spells ('\\' :: 'u' :: a :: b :: c :: d :: t) (Char.ofNat n :: s)
  | pair {a b c d a' b' c' d' : Char} {high low : Nat} {t s : Text} (hquad : hexQuad? a b c d = some high)
      (hhigh : IsHighHalf high) (hquad' : hexQuad? a' b' c' d' = some low) (hlow : IsLowHalf low)
      (ht : Spells t s) :
      Spells ('\\' :: 'u' :: a :: b :: c :: d :: '\\' :: 'u' :: a' :: b' :: c' :: d' :: t)
        (joinSurrogates high low :: s)

theorem Spells.isChars {key name : Text} (h : Spells key name) : IsChars key := by
  induction h with
  | nil => exact .nil
  | plain hquote hslash hcontrol _ ih => exact .plain hquote hslash hcontrol ih
  | short he hshort _ ih => exact .short he (Option.isSome_of_eq_some hshort) ih
  | unicode hquad _ _ ih => exact .unicode (Option.isSome_of_eq_some hquad) ih
  | pair hquad _ hquad' _ _ ih =>
    exact .unicode (Option.isSome_of_eq_some hquad) (.unicode (Option.isSome_of_eq_some hquad') ih)

/-- Characters that need no escape stand for themselves. -/
theorem spells_self {t : Text} (h : ∀ c ∈ t, c ≠ '"' ∧ c ≠ '\\' ∧ ¬ c.toNat < 0x20) : Spells t t := by
  induction t with
  | nil => exact .nil
  | cons c t ih =>
    obtain ⟨⟨hquote, hslash, hcontrol⟩, ht⟩ := List.forall_mem_cons.1 h
    exact .plain hquote hslash hcontrol (ih ht)

/-! ## Items and members -/

/-- A value with the blanks around it. -/
structure Item where
  before : Text
  value : Text
  after : Text

/-- A key and a value, with the blanks around both. -/
structure Member where
  before : Text
  key : Text
  between : Text
  item : Item

def Item.text (i : Item) : Text := i.before ++ (i.value ++ i.after)

def Member.text (m : Member) : Text := m.before ++ '"' :: (m.key ++ '"' :: (m.between ++ ':' :: m.item.text))

/-- All of an item but its value is as it may be. -/
structure Item.Framed (i : Item) : Prop where
  before : IsBlanks i.before
  after : IsBlanks i.after

/-- All of a member but its value is as it may be. -/
structure Member.Framed (m : Member) : Prop where
  before : IsBlanks m.before
  key : IsChars m.key
  between : IsBlanks m.between
  item : m.item.Framed

/-- The text of a list with blanks in front of its end. -/
def listText (items : List Item) (closing : Text) : Text :=
  '[' :: (separated true (items.map Item.text) ++ (closing ++ [']']))

/-- The text of an object with blanks in front of its end. -/
def objectText (ms : List Member) (closing : Text) : Text :=
  '{' :: (separated true (ms.map Member.text) ++ (closing ++ ['}']))

/-! ## Values -/

/-- A JSON value without blanks around it. -/
inductive IsValue : Text → Prop
  | word {w : Text} (h : w ∈ ["null".toList, "true".toList, "false".toList]) : IsValue w
  | number {w : Text} {n : NumberParts} (h : SpellsNumber w n) : IsValue w
  | string {t : Text} (h : IsChars t) : IsValue ('"' :: (t ++ ['"']))
  | list {items : List Item} {closing : Text} (hframes : ∀ i ∈ items, i.Framed)
      (hvalues : ∀ i ∈ items, IsValue i.value) (hclosing : IsBlanks closing) : IsValue (listText items closing)
  | object {ms : List Member} {closing : Text} (hframes : ∀ m ∈ ms, m.Framed)
      (hvalues : ∀ m ∈ ms, IsValue m.item.value) (hclosing : IsBlanks closing) : IsValue (objectText ms closing)

/-- The item is a value with blanks around it. -/
structure Item.Proper (i : Item) : Prop extends i.Framed where
  value : IsValue i.value

/-- The member is a key and a value with blanks around both. -/
structure Member.Proper (m : Member) : Prop extends m.Framed where
  value : IsValue m.item.value

/-- The text is a list of these items. -/
def IsList (w : Text) (items : List Item) : Prop :=
  ∃ closing, IsBlanks closing ∧ (∀ i ∈ items, i.Proper) ∧ w = listText items closing

/-- The text is an object with these members. -/
def IsObject (w : Text) (ms : List Member) : Prop :=
  ∃ closing, IsBlanks closing ∧ (∀ m ∈ ms, m.Proper) ∧ w = objectText ms closing

theorem IsList.isValue {w : Text} {items : List Item} (h : IsList w items) : IsValue w := by
  obtain ⟨closing, hclosing, hitems, rfl⟩ := h
  exact .list (fun i hi => (hitems i hi).toFramed) (fun i hi => (hitems i hi).value) hclosing

theorem IsObject.isValue {w : Text} {ms : List Member} (h : IsObject w ms) : IsValue w := by
  obtain ⟨closing, hclosing, hms, rfl⟩ := h
  exact .object (fun m hm => (hms m hm).toFramed) (fun m hm => (hms m hm).value) hclosing

/-! ## What a value starts with -/

namespace IsValue

variable {w t : Text}

/-- A value starts with neither a blank nor a mark of the list or the object around it. -/
theorem exists_cons (h : IsValue w) : ∃ c t, w = c :: t ∧ c ∉ [' ', '\n', '\t', '\r', ']', '}', ','] := by
  cases h with
  | word h =>
    have hwords : ∀ w ∈ ["null".toList, "true".toList, "false".toList],
        ∃ c ∈ w.head?, c ∉ [' ', '\n', '\t', '\r', ']', '}', ','] := by
      simp
    obtain ⟨c, hc, hopen⟩ := hwords w h
    obtain ⟨t, rfl⟩ := List.head?_eq_some_iff.1 hc
    exact ⟨c, t, rfl, hopen⟩
  | number h =>
    have hmarks : ∀ c ∈ [' ', '\n', '\t', '\r', ']', '}', ','], ¬ (c = '-' ∨ c.isDigit) := by simp
    obtain ⟨c, t, rfl, hc⟩ := h.startsNumber
    exact ⟨c, t, rfl, fun hmem => hmarks c hmem hc⟩
  | string h => exact ⟨'"', _, rfl, by decide⟩
  | list => exact ⟨'[', _, rfl, by decide⟩
  | object => exact ⟨'{', _, rfl, by decide⟩

theorem ne_nil (h : IsValue w) : w ≠ [] := by
  obtain ⟨c, t, rfl, -⟩ := h.exists_cons
  exact List.cons_ne_nil c t

theorem skipBlanks_append (h : IsValue w) (rest : Text) : skipBlanks (w ++ rest) = w ++ rest := by
  obtain ⟨c, t, rfl, hc⟩ := h.exists_cons
  refine skipBlanks_cons (fun hblank => hc ?_) _
  exact List.mem_append_left [']', '}', ','] hblank

/-- The first character tells what a value is. -/
theorem of_cons {c : Char} (h : IsValue (c :: t)) :
    (c ∈ ['n', 't', 'f'] ∧ c :: t ∈ ["null".toList, "true".toList, "false".toList]) ∨
    ((c = '-' ∨ c.isDigit) ∧ ∃ n, SpellsNumber (c :: t) n) ∨
    (c = '"' ∧ ∃ u, IsChars u ∧ t = u ++ ['"']) ∨
    (c = '[' ∧ ∃ items, IsList (c :: t) items) ∨
    (c = '{' ∧ ∃ ms, IsObject (c :: t) ms) := by
  generalize hw : c :: t = w at h
  cases h with
  | word h =>
    have hwords : ∀ w ∈ ["null".toList, "true".toList, "false".toList], ∀ c ∈ w.head?, c ∈ ['n', 't', 'f'] := by
      simp
    exact .inl ⟨hwords w h c (hw ▸ rfl), h⟩
  | number h =>
    obtain ⟨d, u, rfl, hd⟩ := h.startsNumber
    cases hw
    exact .inr (.inl ⟨hd, _, h⟩)
  | string h =>
    cases hw
    exact .inr (.inr (.inl ⟨rfl, _, h, rfl⟩))
  | list hframes hvalues hclosing =>
    cases hw
    refine .inr (.inr (.inr (.inl ⟨rfl, _, _, hclosing, fun i hi => ?_, rfl⟩)))
    exact ⟨hframes i hi, hvalues i hi⟩
  | object hframes hvalues hclosing =>
    cases hw
    refine .inr (.inr (.inr (.inr ⟨rfl, _, _, hclosing, fun m hm => ?_, rfl⟩)))
    exact ⟨hframes m hm, hvalues m hm⟩

theorem eq_word {c : Char} (h : IsValue (c :: t)) (hc : c ∈ ['n', 't', 'f']) :
    c :: t ∈ ["null".toList, "true".toList, "false".toList] := by
  have hothers : ∀ c ∈ ['n', 't', 'f'], ¬ (c = '-' ∨ c.isDigit) ∧ c ∉ ['"', '[', '{'] := by simp
  obtain ⟨hnumber, hmark⟩ := hothers c hc
  obtain ⟨-, h⟩ | ⟨hd, -⟩ | ⟨rfl, -⟩ | ⟨rfl, -⟩ | ⟨rfl, -⟩ := h.of_cons
  · exact h
  · exact absurd hd hnumber
  all_goals exact absurd (by decide) hmark

theorem exists_number {c : Char} (h : IsValue (c :: t)) (hc : c = '-' ∨ c.isDigit) :
    ∃ n, SpellsNumber (c :: t) n := by
  have hothers : ∀ c ∈ ['n', 't', 'f', '"', '[', '{'], ¬ (c = '-' ∨ c.isDigit) := by simp
  obtain ⟨hword, -⟩ | ⟨-, h⟩ | ⟨rfl, -⟩ | ⟨rfl, -⟩ | ⟨rfl, -⟩ := h.of_cons
  · exact absurd hc (hothers c (List.mem_append_left ['"', '[', '{'] hword))
  · exact h
  all_goals exact absurd hc (hothers _ (by decide))

theorem exists_chars (h : IsValue ('"' :: t)) : ∃ u, IsChars u ∧ t = u ++ ['"'] := by
  obtain ⟨hword, -⟩ | ⟨hnumber, -⟩ | ⟨-, h⟩ | ⟨hbracket, -⟩ | ⟨hbrace, -⟩ := h.of_cons
  · exact absurd hword (by decide)
  · exact absurd hnumber (by decide)
  · exact h
  · cases hbracket
  · cases hbrace

theorem exists_items (h : IsValue ('[' :: t)) : ∃ items, IsList ('[' :: t) items := by
  obtain ⟨hword, -⟩ | ⟨hnumber, -⟩ | ⟨hquote, -⟩ | ⟨-, h⟩ | ⟨hbrace, -⟩ := h.of_cons
  · exact absurd hword (by decide)
  · exact absurd hnumber (by decide)
  · cases hquote
  · exact h
  · cases hbrace

theorem exists_members (h : IsValue ('{' :: t)) : ∃ ms, IsObject ('{' :: t) ms := by
  obtain ⟨hword, -⟩ | ⟨hnumber, -⟩ | ⟨hquote, -⟩ | ⟨hbracket, -⟩ | ⟨-, h⟩ := h.of_cons
  · exact absurd hword (by decide)
  · exact absurd hnumber (by decide)
  · cases hquote
  · cases hbracket
  · exact h

end IsValue

end CellFormat.Json
