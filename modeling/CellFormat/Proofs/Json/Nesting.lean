import CellFormat.Proofs.Json.Records
/-!
# How deep containers are nested

`nesting` counts the containers that are open at once in a JSON text; brackets
in strings are none. It is determined piece by piece: a piece `w` that
`Nests k w` takes `k` containers more than are open around it and closes them
again.
-/

namespace CellFormat.Json

/-! ## Nesting of a text -/

/-- Between the tokens of a text, in a string, or behind a backslash in one. -/
inductive Place where
  | outside
  | inString
  | escaped
  deriving DecidableEq, Repr

/-- The place after a character. -/
def Place.next : Place → Char → Place
  | outside, c => if c = '"' then inString else outside
  | inString, c => if c = '"' then outside else if c = '\\' then escaped else inString
  | escaped, _ => inString

/-- How many containers are open after a character outside of strings. -/
def openAfter (opened : Nat) (c : Char) : Nat :=
  if c = '{' ∨ c = '[' then opened + 1 else if c = '}' ∨ c = ']' then opened - 1 else opened

/-- The most containers open at once, with `opened` of them open in front of the text. -/
def nestingFrom : Place → (opened : Nat) → Text → Nat
  | _, opened, [] => opened
  | place, opened, c :: t =>
    max opened (nestingFrom (place.next c) (if place = .outside then openAfter opened c else opened) t)

/-- The most containers that are open at once in a text. -/
def nesting (t : Text) : Nat := nestingFrom .outside 0 t

theorem le_nestingFrom (place : Place) (n : Nat) (t : Text) : n ≤ nestingFrom place n t := by
  cases t with
  | nil => exact Nat.le_refl n
  | cons c t => exact Nat.le_max_left ..

/-! ## Pieces of a text -/

/-- The piece opens up to `k` containers at once and closes them. -/
def Nests (k : Nat) (w : Text) : Prop :=
  ∀ n rest, nestingFrom .outside n (w ++ rest) = max (n + k) (nestingFrom .outside n rest)

theorem Nests.nesting_eq {k : Nat} {w : Text} (h : Nests k w) : nesting w = k := by
  have h0 := h 0 []
  rw [List.append_nil, nestingFrom, Nat.zero_add, Nat.max_zero] at h0
  exact h0

theorem nests_nil : Nests 0 [] := fun n rest => (Nat.max_eq_right (le_nestingFrom .outside n rest)).symm

theorem Nests.append {k l : Nat} {v w : Text} (hv : Nests k v) (hw : Nests l w) : Nests (max k l) (v ++ w) := by
  intro n rest
  rw [List.append_assoc, hv, hw, ← Nat.max_assoc, Nat.add_max_add_left]

/-- A character that changes nothing. -/
def isPlain (c : Char) : Bool := c ∉ ['"', '{', '[', '}', ']']

theorem nests_of_plain {w : Text} (h : w.all isPlain = true) : Nests 0 w := by
  induction w with
  | nil => exact nests_nil
  | cons c w ih =>
    rw [List.all_cons, Bool.and_eq_true] at h
    obtain ⟨hc, hw⟩ := h
    simp only [isPlain, decide_eq_true_eq, List.mem_cons, List.not_mem_nil, or_false, not_or] at hc
    have hnext : Place.outside.next c = .outside := if_neg hc.1
    intro n rest
    have hopen : openAfter n c = n := by simp [openAfter, hc]
    rw [List.cons_append, nestingFrom, hnext, if_pos rfl, hopen, ih hw, ← Nat.max_assoc,
      Nat.max_eq_right (Nat.le_add_right n 0)]

/-- A container takes one more than what it holds. -/
theorem Nests.container {k : Nat} {w : Text} (h : Nests k w) {o c : Char}
    (hoc : (o, c) ∈ [('{', '}'), ('[', ']')]) : Nests (k + 1) (o :: w ++ [c]) := by
  have ho (n : Nat) : Place.outside.next o = .outside ∧ openAfter n o = n + 1 := by
    rcases List.mem_pair.1 hoc with h | h <;> cases h <;> exact ⟨rfl, rfl⟩
  have hc (n : Nat) : Place.outside.next c = .outside ∧ openAfter (n + 1) c = n := by
    rcases List.mem_pair.1 hoc with h | h <;> cases h <;> exact ⟨rfl, rfl⟩
  intro n rest
  have hle := le_nestingFrom .outside n rest
  rw [List.append_assoc, List.cons_append, nestingFrom, (ho n).1, if_pos rfl, (ho n).2, h, List.singleton_append,
    nestingFrom, (hc n).1, if_pos rfl, (hc n).2]
  omega

/-! ## Strings -/

/-- No escape of a character ends the string. -/
theorem nestingFrom_writeChar (n : Nat) (c : Char) (rest : Text) :
    nestingFrom .inString n (writeChar c ++ rest) = nestingFrom .inString n rest := by
  have hmax := Nat.max_eq_right (le_nestingFrom .inString n rest)
  obtain ⟨e, -, -, hwrite⟩ | ⟨hcontrol, hwrite⟩ | ⟨hquote, hslash, -, hwrite⟩ := writeChar_cases c
  · rw [hwrite]
    simp [nestingFrom, Place.next, hmax]
  · -- Digits are neither quotes nor backslashes.
    have hdigit : ∀ n < 0x10, hexDigit n ≠ '"' ∧ hexDigit n ≠ '\\' := by decide
    have hhigh := hdigit (c.toNat / 16) (by omega)
    have hlow := hdigit (c.toNat % 16) (by omega)
    rw [hwrite]
    simp [nestingFrom, Place.next, hhigh, hlow, hmax]
  · rw [hwrite]
    simp [nestingFrom, Place.next, hquote, hslash, hmax]

theorem nests_string (t : Text) : Nests 0 (writeString t) := by
  intro n rest
  have hinner : nestingFrom .inString n (t.flatMap writeChar ++ '"' :: rest) = nestingFrom .outside n rest := by
    induction t with
    | nil => exact Nat.max_eq_right (le_nestingFrom .outside n rest)
    | cons c t ih => rw [List.flatMap_cons, List.append_assoc, nestingFrom_writeChar, ih]
  rw [writeString_append, nestingFrom]
  exact congrArg (max n) hinner

/-! ## Items of a container -/

theorem separated_append (first : Bool) (vs ws : List Text) :
    separated first (vs ++ ws) = separated first vs ++ separated (first && vs.isEmpty) ws := by
  induction vs generalizing first with
  | nil => simp [separated]
  | cons v vs ih => simp [separated, ih]

/-- Commas open nothing, so items nest as deep as the deepest of them. -/
def ItemsNest (k : Nat) (ws : List Text) : Prop := ∀ first, Nests k (separated first ws)

theorem itemsNest_nil : ItemsNest 0 [] := fun _ => nests_nil

theorem itemsNest_singleton {k : Nat} {w : Text} (h : Nests k w) : ItemsNest k [w] := by
  intro first
  have hcomma : Nests 0 (if first then [] else [',']) := by
    apply nests_of_plain
    cases first <;> decide
  have hitem := hcomma.append (h.append nests_nil)
  rwa [Nat.max_zero, Nat.zero_max] at hitem

theorem ItemsNest.append {k l : Nat} {vs ws : List Text} (hv : ItemsNest k vs) (hw : ItemsNest l ws) :
    ItemsNest (max k l) (vs ++ ws) := by
  intro first
  rw [separated_append]
  exact (hv first).append (hw _)

theorem ItemsNest.list {k : Nat} {ws : List Text} (h : ItemsNest k ws) : Nests (k + 1) (writeList ws) := by
  rw [writeList, intercalate_eq_separated]
  exact (h true).container (by decide)

theorem nests_member (name : Text) {k : Nat} {value : Text} (h : Nests k value) :
    Nests k (memberText (name, value)) := by
  have hcolon : Nests 0 [':'] := nests_of_plain (by decide)
  have hmember := (nests_string name).append (hcolon.append h)
  rwa [Nat.zero_max, Nat.zero_max] at hmember

theorem ItemsNest.object {k : Nat} {ms : List (Text × Text)} (h : ItemsNest k (ms.map memberText)) :
    Nests (k + 1) (writeObject ms) := by
  have htext : writeObject ms = '{' :: separated true (ms.map memberText) ++ ['}'] := by
    rw [← intercalate_eq_separated]
    rfl
  rw [htext]
  exact (h true).container (by decide)

/-! ## Values -/

theorem nests_bool (b : Bool) : Nests 0 (writeBool b) := by
  apply nests_of_plain
  cases b <;> decide

theorem all_isPlain_of_digits {t : Text} (h : ∀ c ∈ t, c.isDigit) : t.all isPlain = true := by
  have hnone : ['"', '{', '[', '}', ']'].all (fun c => !c.isDigit) = true := by decide
  rw [List.all_eq_true]
  intro c hc
  rw [isPlain, decide_eq_true_eq]
  intro hmem
  have hother := List.all_eq_true.1 hnone c hmem
  simp [h c hc] at hother

theorem nests_ofNat (n : Nat) : Nests 0 (Text.ofNat n) :=
  nests_of_plain (all_isPlain_of_digits (Text.isNumeral_ofNat n).2)

theorem NumberParts.Proper.all_isPlain {n : NumberParts} (h : n.Proper) : n.write.all isPlain = true := by
  have hsign : (if n.negative then ['-'] else []).all isPlain = true := by cases n.negative <;> decide
  have hfraction : (writeFraction n.fraction).all isPlain = true := by
    unfold writeFraction
    split
    · rfl
    · rw [List.all_cons, all_isPlain_of_digits h.fraction]
      rfl
  have hpower : (n.power.elim [] Power.write).all isPlain = true := by
    cases hp : n.power with
    | none => rfl
    | some p =>
      have hdigits := all_isPlain_of_digits (h.power p hp).2
      obtain ⟨negative, digits⟩ := p
      cases negative <;> exact hdigits
  simp only [write, List.all_append, hsign, all_isPlain_of_digits h.whole.numeral.2, hfraction, hpower, Bool.and_self]

theorem nests_interchange (x : Binary64) : Nests 0 (NumberLayout.interchange.write x) := by
  apply nests_of_plain
  cases x with
  | nan => decide
  | infinite negative => cases negative <;> decide
  | finite negative m =>
    by_cases hm : m.units = 0
    · rw [NumberLayout.write, if_pos hm]
      cases negative <;> decide
    · obtain ⟨n, hwrite, hproper, -⟩ := exists_write_interchange negative hm
      rw [← hwrite]
      exact hproper.all_isPlain

end CellFormat.Json
