import CellFormat.Json.Strings
/-!
# Strings are read back

Whatever characters a string has, reading takes it out of its quotes again
(`readChars_flatMap_writeChar`): every character is either written as an escape
that stands for it, or is none that a string may not hold.
-/

namespace CellFormat.Json

variable {c : Char} {rest rest' t w : Text}

theorem readChars_escape (hescape : readEscape w = .ok (c, rest)) (h : readChars rest = .ok (t, rest')) :
    readChars ('\\' :: w) = .ok (c :: t, rest') := by
  rw [readChars]
  split
  · next e he => rw [hescape] at he; cases he
  · next d rest₂ he =>
    rw [hescape] at he
    cases he
    rw [h]

theorem readChars_plain (hquote : c ≠ '"') (hslash : c ≠ '\\') (hcontrol : ¬ c.toNat < 0x20)
    (h : readChars rest = .ok (t, rest')) : readChars (c :: rest) = .ok (c :: t, rest') := by
  rw [readChars, if_neg hcontrol, h]
  · exact hquote
  · exact hslash

theorem readHexQuad_cons {a b c d : Char} {n : Nat} (hquad : hexQuad? a b c d = some n) (rest : Text) :
    readHexQuad (a :: b :: c :: d :: rest) = .ok (n, rest) := by
  have hroom : ¬ Text.bytes (a :: b :: c :: d :: rest) < 4 := by
    have := a.utf8Size_pos
    have := b.utf8Size_pos
    have := c.utf8Size_pos
    have := d.utf8Size_pos
    simp only [Text.bytes_cons]
    omega
  simp only [readHexQuad, if_neg hroom, hquad]

/-- A control without a short escape is written in four digits, the first two of them zeros. -/
theorem readEscape_control (hcontrol : c.toNat < 0x20) (rest : Text) :
    readEscape ('u' :: '0' :: '0' :: hexDigit (c.toNat / 16) :: hexDigit (c.toNat % 16) :: rest) = .ok (c, rest) := by
  have hquad : ∀ n < 0x20, hexQuad? '0' '0' (hexDigit (n / 16)) (hexDigit (n % 16)) = some n := by decide
  have hread := readHexQuad_cons (hquad c.toNat hcontrol) rest
  simp only [readEscape, if_pos, readUnicode, hread, bind, Except.bind]
  rw [if_neg (by omega), if_neg (by omega), Char.ofNat_toNat]

/-- How a character is written: as a short escape, in four digits, or as it is. -/
theorem writeChar_cases (c : Char) :
    (∃ e, e ≠ 'u' ∧ shortEscape? e = some c ∧ writeChar c = ['\\', e]) ∨
    (c.toNat < 0x20 ∧
      writeChar c = ['\\', 'u', '0', '0', hexDigit (c.toNat / 16), hexDigit (c.toNat % 16)]) ∨
    (c ≠ '"' ∧ c ≠ '\\' ∧ ¬ c.toNat < 0x20 ∧ writeChar c = [c]) := by
  unfold writeChar
  iterate 7
    split
    · next hc => exact .inl ⟨_, by decide, by rw [hc]; rfl, rfl⟩
  split
  · next hcontrol => exact .inr (.inl ⟨hcontrol, rfl⟩)
  · next hcontrol => exact .inr (.inr ⟨‹_›, ‹_›, hcontrol, rfl⟩)

theorem readChars_writeChar (h : readChars rest = .ok (t, rest')) :
    readChars (writeChar c ++ rest) = .ok (c :: t, rest') := by
  obtain ⟨e, he, hshort, hwrite⟩ | ⟨hcontrol, hwrite⟩ | ⟨hquote, hslash, hcontrol, hwrite⟩ := writeChar_cases c
  · have hescape : readEscape (e :: rest) = .ok (c, rest) := by
      simp only [readEscape, if_neg he, hshort]
    rw [hwrite]
    exact readChars_escape hescape h
  · rw [hwrite]
    exact readChars_escape (readEscape_control hcontrol rest) h
  · rw [hwrite]
    exact readChars_plain hquote hslash hcontrol h

/-- A written string is read back from after its opening quote. -/
theorem readChars_flatMap_writeChar (t rest : Text) :
    readChars (t.flatMap writeChar ++ '"' :: rest) = .ok (t, rest) := by
  induction t with
  | nil => rw [List.flatMap_nil, List.nil_append, readChars]
  | cons c t ih =>
    rw [List.flatMap_cons, List.append_assoc]
    exact readChars_writeChar ih

end CellFormat.Json
