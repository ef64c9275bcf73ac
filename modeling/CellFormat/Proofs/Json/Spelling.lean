import CellFormat.Json.Skipping
import CellFormat.Proofs.Json.Accepted
import CellFormat.Proofs.Json.Grammar
/-!
# Strings in any spelling

Reading what stands between quotes gives the text that it spells, whatever comes
after the closing quote, and fails if it spells none (`readChars_append_iff`).
Passing it over needs the shape only (`skipChars_append`).
-/

namespace CellFormat.Json

variable {a b c d : Char} {n : Nat} {t s rest rest' key name : Text}

/-! ## Escapes -/

theorem eq_cons_of_readHexQuad (h : readHexQuad t = .ok (n, rest)) :
    ∃ a b c d, t = a :: b :: c :: d :: rest ∧ hexQuad? a b c d = some n := by
  unfold readHexQuad at h
  split at h
  · cases h
  · dsimp only at h
    split at h
    · split at h
      · next hquad =>
        cases h
        exact ⟨_, _, _, _, rfl, hquad⟩
      · cases h
    · cases h

/-- An escape of a second half of a pair. -/
theorem eq_cons_of_readLowSurrogate (h : readLowSurrogate t = .ok (n, rest)) :
    ∃ a b c d, t = '\\' :: 'u' :: a :: b :: c :: d :: rest ∧ hexQuad? a b c d = some n ∧ IsLowHalf n := by
  unfold readLowSurrogate at h
  split at h
  · cases h
  · cases h
  · obtain ⟨⟨low, t⟩, hquad, h⟩ := bind_eq_ok_iff.1 h
    dsimp only at h
    split at h
    · next hlow =>
      cases h
      obtain ⟨a, b, c, d, rfl, hdigits⟩ := eq_cons_of_readHexQuad hquad
      exact ⟨a, b, c, d, rfl, hdigits, hlow⟩
    · cases h
  · cases h
  · cases h

theorem readUnicode_cons (hquad : hexQuad? a b c d = some n) (hn : ¬ IsHalf n) (rest : Text) :
    readUnicode (a :: b :: c :: d :: rest) = .ok (Char.ofNat n, rest) := by
  have hlow : ¬ IsLowHalf n := fun h => hn ⟨Nat.le_trans (by decide) h.1, h.2⟩
  have hhigh : ¬ IsHighHalf n := fun h => hn ⟨h.1, Nat.le_trans h.2 (by decide)⟩
  simp only [readUnicode, readHexQuad_cons hquad, bind, Except.bind]
  rw [if_neg hlow, if_neg hhigh]

theorem readUnicode_pair {a' b' c' d' : Char} {high low : Nat} (hquad : hexQuad? a b c d = some high)
    (hhigh : IsHighHalf high) (hquad' : hexQuad? a' b' c' d' = some low) (hlow : IsLowHalf low) (rest : Text) :
    readUnicode (a :: b :: c :: d :: '\\' :: 'u' :: a' :: b' :: c' :: d' :: rest) =
      .ok (joinSurrogates high low, rest) := by
  have hnot : ¬ IsLowHalf high := fun h => absurd (Nat.le_trans h.1 hhigh.2) (by decide)
  have hsecond : readLowSurrogate ('\\' :: 'u' :: a' :: b' :: c' :: d' :: rest) = .ok (low, rest) := by
    simp only [readLowSurrogate, readHexQuad_cons hquad', bind, Except.bind]
    rw [if_pos hlow]
  simp only [readUnicode, readHexQuad_cons hquad, bind, Except.bind]
  rw [if_neg hnot, if_pos hhigh, hsecond]

theorem readEscape_short {e : Char} (he : e ≠ 'u') (hshort : shortEscape? e = some c) (rest : Text) :
    readEscape (e :: rest) = .ok (c, rest) := by
  simp only [readEscape, if_neg he, hshort]

theorem skipEscape_short {e : Char} (he : e ≠ 'u') (hshort : (shortEscape? e).isSome) (rest : Text) :
    skipEscape (e :: rest) = .ok rest := by
  rw [skipEscape, if_neg he, if_pos hshort]

theorem skipEscape_unicode (hquad : hexQuad? a b c d = some n) (rest : Text) :
    skipEscape ('u' :: a :: b :: c :: d :: rest) = .ok rest := by
  rw [skipEscape, if_pos rfl, readHexQuad_cons hquad]
  rfl

theorem spells_of_readUnicode (h : readUnicode t = .ok (c, rest)) :
    ∃ escape, t = escape ++ rest ∧
      ∀ {key name : Text}, Spells key name → Spells ('\\' :: 'u' :: escape ++ key) (c :: name) := by
  obtain ⟨⟨n, t'⟩, hquad, hafter⟩ := bind_eq_ok_iff.1 h
  obtain ⟨x, y, z, w, rfl, hdigits⟩ := eq_cons_of_readHexQuad hquad
  dsimp only at hafter
  split at hafter
  · cases hafter
  · next hlow =>
    split at hafter
    · next hhigh =>
      obtain ⟨⟨low, t''⟩, hsecond, hpair⟩ := bind_eq_ok_iff.1 hafter
      simp only [Except.ok.injEq, Prod.mk.injEq] at hpair
      obtain ⟨rfl, rfl⟩ := hpair
      obtain ⟨x', y', z', w', rfl, hdigits', hlow'⟩ := eq_cons_of_readLowSurrogate hsecond
      exact ⟨[x, y, z, w, '\\', 'u', x', y', z', w'], rfl, fun hkey => .pair hdigits hhigh hdigits' hlow' hkey⟩
    · next hhigh =>
      have hhalf : ¬ IsHalf n := fun ⟨hle, hge⟩ => by omega
      cases hafter
      exact ⟨[x, y, z, w], rfl, fun hkey => .unicode hdigits hhalf hkey⟩

/-- An escape in front of characters that spell a text spells a character more. -/
theorem spells_of_readEscape (h : readEscape t = .ok (c, rest)) :
    ∃ escape, t = escape ++ rest ∧
      ∀ {key name : Text}, Spells key name → Spells ('\\' :: escape ++ key) (c :: name) := by
  unfold readEscape at h
  split at h
  · cases h
  · next e t =>
    split at h
    · next he =>
      subst he
      obtain ⟨escape, rfl, hspells⟩ := spells_of_readUnicode h
      exact ⟨'u' :: escape, rfl, hspells⟩
    · next he =>
      split at h
      · next hshort =>
        cases h
        exact ⟨[e], rfl, fun hkey => .short he hshort hkey⟩
      · cases h

/-! ## Strings -/

theorem readChars_append (h : Spells key name) (rest : Text) : readChars (key ++ '"' :: rest) = .ok (name, rest) := by
  induction h with
  | nil => rw [List.nil_append, readChars]
  | plain hquote hslash hcontrol _ ih => exact readChars_plain hquote hslash hcontrol ih
  | short he hshort _ ih =>
    exact readChars_escape (readEscape_short he hshort _) ih
  | unicode hquad hn _ ih =>
    exact readChars_escape (readUnicode_cons hquad hn _) ih
  | pair hquad hhigh hquad' hlow _ ih =>
    exact readChars_escape (readUnicode_pair hquad hhigh hquad' hlow _) ih

theorem spells_of_readChars (h : readChars t = .ok (s, rest)) : ∃ key, t = key ++ '"' :: rest ∧ Spells key s := by
  fun_induction readChars t generalizing s rest with
  | case1 => cases h
  | case2 t =>
    cases h
    exact ⟨[], rfl, .nil⟩
  | case5 t c t' hescape s' rest' hread ih =>
    cases h
    obtain ⟨escape, rfl, hspells⟩ := spells_of_readEscape hescape
    obtain ⟨key, rfl, hkey⟩ := ih hread
    exact ⟨'\\' :: escape ++ key, by simp, hspells hkey⟩
  | case8 c t hquote hslash hcontrol s' rest' hread ih =>
    cases h
    obtain ⟨key, rfl, hkey⟩ := ih hread
    exact ⟨c :: key, rfl, .plain hquote hslash hcontrol hkey⟩
  | _ => cases h

theorem skipChars_plain (hquote : c ≠ '"') (hslash : c ≠ '\\') (hcontrol : ¬ c.toNat < 0x20) (t : Text) :
    skipChars (c :: t) = skipChars t := by
  rw [skipChars, if_neg hcontrol]
  · exact hquote
  · exact hslash

theorem skipChars_escape (hescape : skipEscape t = .ok rest) (h : skipChars rest = .ok rest') :
    skipChars ('\\' :: t) = .ok rest' := by
  rw [skipChars]
  split
  · next e he => rw [hescape] at he; cases he
  · next u he =>
    rw [hescape] at he
    cases he
    exact h

theorem skipChars_append (h : IsChars t) (rest : Text) : skipChars (t ++ '"' :: rest) = .ok rest := by
  induction h with
  | nil => rw [List.nil_append, skipChars]
  | plain hquote hslash hcontrol _ ih => rw [List.cons_append, skipChars_plain hquote hslash hcontrol, ih]
  | short he hshort _ ih => exact skipChars_escape (skipEscape_short he hshort _) ih
  | unicode hquad _ ih =>
    obtain ⟨n, hn⟩ := Option.isSome_iff_exists.1 hquad
    exact skipChars_escape (skipEscape_unicode hn _) ih

theorem readChars_append_iff (h : IsChars t) :
    readChars (t ++ '"' :: rest) = .ok (s, rest') ↔ rest' = rest ∧ Spells t s := by
  constructor
  · intro hread
    obtain ⟨key, htext, hkey⟩ := spells_of_readChars hread
    -- Where a string ends does not depend on what it spells.
    have hskip := skipChars_append h rest
    rw [htext, skipChars_append hkey.isChars] at hskip
    cases hskip
    rw [List.append_cancel_right htext]
    exact ⟨rfl, hkey⟩
  · rintro ⟨rfl, hspells⟩
    exact readChars_append hspells _

end CellFormat.Json
