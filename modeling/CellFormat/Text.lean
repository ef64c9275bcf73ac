/-!
# Text

A text is the list of its characters. Lengths and positions inside a text are
counted in bytes of its UTF-8 form, so a position may fall inside a character:
`fromByte?` is the one place that says what stands at a position.
-/

namespace CellFormat

/-- A text, character by character. -/
abbrev Text := List Char

namespace Text

/-! ## Byte positions -/

/-- The length of the UTF-8 form. -/
def bytes : Text → Nat
  | [] => 0
  | c :: t => c.utf8Size + bytes t

/-- The text from byte `position` on; none past the end or inside a character. -/
def fromByte? : Text → (position : Nat) → Option Text
  | t, 0 => some t
  | [], _ + 1 => none
  | c :: t, i + 1 => if c.utf8Size ≤ i + 1 then fromByte? t (i + 1 - c.utf8Size) else none

@[simp] theorem bytes_nil : bytes [] = 0 := rfl

@[simp] theorem bytes_cons (c : Char) (t : Text) : bytes (c :: t) = c.utf8Size + bytes t := rfl

@[simp] theorem bytes_append (t u : Text) : bytes (t ++ u) = bytes t + bytes u := by
  induction t with
  | nil => simp
  | cons c t ih => simp only [List.cons_append, bytes_cons, ih]; omega

@[simp] theorem fromByte?_zero (t : Text) : fromByte? t 0 = some t := by
  cases t <;> rfl

/-- What stands at a position and what stands before it make up the whole. -/
theorem bytes_of_fromByte? {t rest : Text} {i : Nat} (h : fromByte? t i = some rest) :
    i + bytes rest = bytes t := by
  induction t generalizing i with
  | nil => cases i <;> simp_all [fromByte?]
  | cons c t ih =>
    cases i with
    | zero => simp_all
    | succ i =>
      simp only [fromByte?] at h
      split at h
      · have := ih h; simp only [bytes_cons]; omega
      · cases h

/-- What stands at a position is the end of the whole. -/
theorem suffix_of_fromByte? {t rest : Text} {i : Nat} (h : fromByte? t i = some rest) : rest <:+ t := by
  induction t generalizing i with
  | nil => cases i <;> simp_all [fromByte?]
  | cons c t ih =>
    cases i with
    | zero =>
      cases h
      exact List.suffix_rfl
    | succ i =>
      simp only [fromByte?] at h
      split at h
      · exact (ih h).trans (List.suffix_cons c t)
      · cases h

/-- A position counted from a position. -/
theorem fromByte?_add {t rest : Text} {i : Nat} (h : fromByte? t i = some rest) (j : Nat) :
    fromByte? t (i + j) = fromByte? rest j := by
  induction t generalizing i with
  | nil => cases i <;> simp_all [fromByte?]
  | cons c t ih =>
    cases i with
    | zero =>
      cases h
      rw [Nat.zero_add]
    | succ i =>
      simp only [fromByte?] at h
      split at h
      · next hc =>
        rw [← ih h, Nat.add_right_comm i 1 j]
        simp only [fromByte?]
        rw [if_pos (by omega)]
        congr 1
        omega
      · cases h

/-- What stands after a text stands at its length. -/
@[simp] theorem fromByte?_append (t rest : Text) : fromByte? (t ++ rest) (bytes t) = some rest := by
  induction t with
  | nil => simp
  | cons c t ih =>
    have hc : fromByte? (c :: (t ++ rest)) c.utf8Size = some (t ++ rest) := by
      obtain ⟨n, hn⟩ := Nat.exists_eq_add_of_lt c.utf8Size_pos
      simp [hn, fromByte?]
    rw [List.cons_append, bytes_cons, fromByte?_add hc, ih]

theorem bytes_pos {t : Text} (h : t ≠ []) : 0 < bytes t := by
  cases t with
  | nil => exact absurd rfl h
  | cons c t => have := c.utf8Size_pos; simp only [bytes_cons]; omega

/-! ## Cutting and comparing -/

/-- The pieces between the separators: the first, and those after it. -/
def split (separator : Char) : Text → Text × List Text
  | [] => ([], [])
  | c :: t =>
    let (first, others) := split separator t
    if c = separator then ([], first :: others) else (c :: first, others)

/-- The text before the first separator and the text after it. -/
def splitFirst? (separator : Char) : Text → Option (Text × Text)
  | [] => none
  | c :: t =>
    if c = separator then some ([], t)
    else (splitFirst? separator t).map fun (before, after) => (c :: before, after)

theorem length_of_splitFirst? {separator : Char} {t before after : Text}
    (h : splitFirst? separator t = some (before, after)) : after.length < t.length := by
  induction t generalizing before with
  | nil => cases h
  | cons c t ih =>
    simp only [splitFirst?] at h
    split at h
    · cases h; simp
    · obtain ⟨⟨b, a⟩, hs, he⟩ := Option.map_eq_some_iff.1 h
      cases he
      exact Nat.lt_succ_of_lt (ih hs)

theorem splitFirst?_append {separator : Char} {t : Text} (h : separator ∉ t) (rest : Text) :
    splitFirst? separator (t ++ separator :: rest) = some (t, rest) := by
  induction t with
  | nil => simp [splitFirst?]
  | cons c t ih =>
    simp only [List.mem_cons, not_or] at h
    rw [List.cons_append, splitFirst?, if_neg (Ne.symm h.1), ih h.2]
    rfl

theorem eq_append_of_splitFirst? {separator : Char} {t before after : Text}
    (h : splitFirst? separator t = some (before, after)) : t = before ++ separator :: after := by
  induction t generalizing before with
  | nil => cases h
  | cons c t ih =>
    simp only [splitFirst?] at h
    split at h
    · next hc =>
      cases h
      rw [hc, List.nil_append]
    · obtain ⟨⟨b, a⟩, hs, he⟩ := Option.map_eq_some_iff.1 h
      cases he
      rw [ih hs, List.cons_append]

theorem splitFirst?_eq_none_iff {separator : Char} {t : Text} :
    splitFirst? separator t = none ↔ separator ∉ t := by
  induction t with
  | nil => simp [splitFirst?]
  | cons c t ih =>
    rw [splitFirst?]
    by_cases hc : c = separator
    · simp [hc]
    · simp [hc, Ne.symm hc, ih]

theorem splitFirst?_eq_some_iff {separator : Char} {t before after : Text} :
    splitFirst? separator t = some (before, after) ↔
      separator ∉ before ∧ t = before ++ separator :: after := by
  constructor
  · intro h
    refine ⟨?_, eq_append_of_splitFirst? h⟩
    induction t generalizing before with
    | nil => cases h
    | cons c t ih =>
      rw [splitFirst?] at h
      split at h
      · cases h
        exact List.not_mem_nil
      · next hc =>
        obtain ⟨⟨b, a⟩, hs, he⟩ := Option.map_eq_some_iff.1 h
        cases he
        simp [Ne.symm hc, ih hs]
  · rintro ⟨hb, rfl⟩
    exact splitFirst?_append hb after

/-- Equal up to the case of ASCII letters. -/
def equalIgnoringCase (t u : Text) : Bool :=
  t.map Char.toLower = u.map Char.toLower

/-- The text without its trailing characters that satisfy `p`. -/
def dropTrailing (p : Char → Bool) (t : Text) : Text :=
  (t.reverse.dropWhile p).reverse

/-! ## Numerals -/

/-- The decimal digits of a natural number. -/
def ofNat (n : Nat) : Text := Nat.toDigits 10 n

/-- At least `width` characters, filled up with zeros on the left. -/
def zeroFill (width : Nat) (t : Text) : Text := t.leftpad width '0'

/-- The decimal digits of a natural number, at least `width` of them. -/
def ofNatFilled (width n : Nat) : Text := zeroFill width (ofNat n)

/-- The decimal digits of an integer, after a minus sign if it is negative. -/
def ofInt : Int → Text
  | .ofNat n => ofNat n
  | .negSucc n => '-' :: ofNat (n + 1)

end Text

end CellFormat
