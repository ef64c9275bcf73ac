import CellFormat.Json.Values
import CellFormat.Payload.Writing
import CellFormat.Proofs.Json.Numbers
import CellFormat.Proofs.Json.Strings
/-!
# Values are read back

`Restores read w a` says that a reader takes the text `w` for the value `a`,
whatever comes after it. Here are the values of a known type that payloads have.
-/

namespace CellFormat.Json

/-- The text starts like a value other than `null`. -/
def StartsValue (w : Text) : Prop := ∃ c t, w = c :: t ∧ c ∉ [' ', '\n', '\t', '\r', ']', 'n']

/-- The text is read as a value, whatever list or object goes on behind it. -/
structure Restores {α : Type} (read : Text → Except Failure (α × Text)) (w : Text) (a : α) : Prop where
  starts : StartsValue w
  reads : ∀ rest, Ends rest → read (w ++ rest) = .ok (a, rest)

theorem skipBlanks_cons {c : Char} (h : c ∉ [' ', '\n', '\t', '\r']) (t : Text) : skipBlanks (c :: t) = c :: t := by
  simp only [List.mem_cons, List.not_mem_nil, or_false, not_or] at h
  simp [skipBlanks, h]

theorem StartsValue.skipBlanks {w : Text} (h : StartsValue w) (rest : Text) : skipBlanks (w ++ rest) = w ++ rest := by
  obtain ⟨c, t, rfl, hc⟩ := h
  refine skipBlanks_cons (fun hblank => hc ?_) _
  exact List.mem_append_left [']', 'n'] hblank

theorem StartsValue.ne_nil {w : Text} (h : StartsValue w) : w ≠ [] := by
  obtain ⟨c, t, rfl, -⟩ := h
  exact List.cons_ne_nil c t

theorem Restores.optional {α : Type} {read : Text → Except Failure (α × Text)} {w : Text} {a : α}
    (h : Restores read w a) : Restores (readOptional read) w (some a) := by
  refine ⟨h.starts, fun rest hrest => ?_⟩
  have hread := h.reads rest hrest
  have hskip := h.starts.skipBlanks rest
  obtain ⟨c, t, rfl, hc⟩ := h.starts
  -- Absence is told by the first letter of `null` alone.
  unfold readOptional
  split
  · next heq =>
    rw [hskip] at heq
    rw [(List.cons.inj heq).1] at hc
    exact absurd hc (by decide)
  · rw [hskip, hread]
    rfl

/-! ## Strings and truth values -/

theorem startsValue_string (t : Text) : StartsValue (writeString t) := ⟨'"', _, rfl, by decide⟩

theorem writeString_append (t rest : Text) : writeString t ++ rest = '"' :: (t.flatMap writeChar ++ '"' :: rest) := by
  simp [writeString]

theorem restores_string (t : Text) : Restores readString (writeString t) t := by
  refine ⟨startsValue_string t, fun rest _ => ?_⟩
  rw [writeString_append, readString, skipBlanks_cons (by decide)]
  exact readChars_flatMap_writeChar t rest

theorem skipWord_append (word rest : Text) : skipWord word (word ++ rest) = .ok rest := by
  induction word with
  | nil => rfl
  | cons w word ih => rw [List.cons_append, skipWord, if_pos rfl, ih]

theorem readBool_append (b : Bool) (rest : Text) : readBool (writeBool b ++ rest) = .ok (b, rest) := by
  cases b with
  | true => exact congrArg (· >>= fun rest => .ok (true, rest)) (skipWord_append "rue".toList rest)
  | false => exact congrArg (· >>= fun rest => .ok (false, rest)) (skipWord_append "alse".toList rest)

theorem restores_bool (b : Bool) : Restores readBool (writeBool b) b := by
  refine ⟨?_, fun rest _ => readBool_append b rest⟩
  cases b with
  | true => exact ⟨'t', _, rfl, by decide⟩
  | false => exact ⟨'f', _, rfl, by decide⟩

/-! ## Numbers -/

/-- The text starts with a digit or a minus sign. -/
def StartsNumber (w : Text) : Prop := ∃ c t, w = c :: t ∧ (c = '-' ∨ c.isDigit)

theorem StartsNumber.startsValue {w : Text} (h : StartsNumber w) : StartsValue w := by
  obtain ⟨c, t, rfl, hc⟩ := h
  have hnone : [' ', '\n', '\t', '\r', ']', 'n'].all (fun c => !(c = '-' || c.isDigit)) = true := by decide
  refine ⟨c, t, rfl, fun hmem => ?_⟩
  have hother := List.all_eq_true.1 hnone c hmem
  rcases hc with rfl | hc
  · cases hother
  · simp [hc] at hother

theorem SpellsNumber.startsNumber {w : Text} {n : NumberParts} (h : SpellsNumber w n) : StartsNumber w := by
  obtain ⟨hproper, power, -, rfl⟩ := h
  split
  · exact ⟨'-', _, rfl, .inl rfl⟩
  · obtain ⟨c, t, hw⟩ := List.exists_cons_of_ne_nil hproper.whole.numeral.1
    rw [hw]
    exact ⟨c, _, rfl, .inr (hproper.whole.numeral.2 c (hw ▸ List.mem_cons_self))⟩

theorem NumberParts.Proper.startsNumber {n : NumberParts} (h : n.Proper) : StartsNumber n.write :=
  h.spells_write.startsNumber

theorem startsNumber_interchange (negative : Bool) (m : Magnitude) :
    StartsNumber (NumberLayout.interchange.write (.finite negative m)) := by
  by_cases hm : m.units = 0
  · rw [NumberLayout.write, if_pos hm]
    cases negative with
    | true => exact ⟨'-', _, rfl, .inl rfl⟩
    | false => exact ⟨'0', _, rfl, .inr (by decide)⟩
  · obtain ⟨n, hwrite, hproper, -⟩ := exists_write_interchange negative hm
    rw [← hwrite]
    exact hproper.startsNumber

theorem restores_float (negative : Bool) (m : Magnitude) :
    Restores readFloat (NumberLayout.interchange.write (.finite negative m)) (.finite negative m) := by
  have hstart := startsNumber_interchange negative m
  refine ⟨hstart.startsValue, fun rest hrest => ?_⟩
  have hread := readNumber_interchange negative m hrest
  rw [readFloat, hstart.startsValue.skipBlanks]
  obtain ⟨c, t, hw, hc⟩ := hstart
  rw [hw] at hread ⊢
  simp only [List.cons_append, if_pos hc] at hread ⊢
  rw [hread]
  rfl

theorem startsNumber_ofNat (n : Nat) : StartsNumber (Text.ofNat n) := by
  obtain ⟨hne, hdigits⟩ := Text.isNumeral_ofNat n
  obtain ⟨c, t, hw⟩ := List.exists_cons_of_ne_nil hne
  exact ⟨c, t, hw, .inr (hdigits c (hw ▸ List.mem_cons_self))⟩

theorem restores_natural (n : UInt64) : Restores readNatural (Text.ofNat n.toNat) n := by
  have hstart := startsNumber_ofNat n.toNat
  refine ⟨hstart.startsValue, fun rest hrest => ?_⟩
  have hread := readNumber_ofNat (Nat.le_of_lt_succ n.toNat_lt) hrest
  rw [readNatural, hstart.startsValue.skipBlanks]
  obtain ⟨c, t, hw, hc⟩ := hstart
  rw [hw] at hread ⊢
  simp only [List.cons_append, if_pos hc] at hread ⊢
  rw [hread]
  exact congrArg (fun n => Except.ok (n, rest)) (UInt64.ofNat_toNat)

end CellFormat.Json
