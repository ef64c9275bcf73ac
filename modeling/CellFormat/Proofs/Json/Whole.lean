import CellFormat.Proofs.Json.Skipped
/-!
# Readers take whole values

What a reader of a known type makes of a JSON value depends on nothing but the
value: if it accepts the value at all, it takes the whole of it, and takes it for
the same whatever blanks stand in front of it and whatever comes behind it
(`Whole`). Here are the readers of strings, numbers and words.
-/

namespace CellFormat.Json

variable {α β : Type} {read : Text → Except Failure (α × Text)} {b rest rest' w : Text} {a : α}

/-- The value is read as `a`, whatever stands behind it. -/
def Reads (read : Text → Except Failure (α × Text)) (w : Text) (a : α) : Prop :=
  ∀ rest, Stops rest → read (w ++ rest) = .ok (a, rest)

/-- The reader reads the whole of a value, if it reads it, and nothing else decides what it reads. -/
structure Whole (read : Text → Except Failure (α × Text)) : Prop where
  blanks : ∀ {b : Text}, IsBlanks b → ∀ t, read (b ++ t) = read t
  reads : ∀ {w rest rest' : Text} {a : α}, IsValue w → Stops rest → read (w ++ rest) = .ok (a, rest') →
    rest' = rest ∧ Reads read w a

theorem Whole.read_append_iff (h : Whole read) (hw : IsValue w) (hb : IsBlanks b) (hrest : Stops rest) :
    read (b ++ (w ++ rest)) = .ok (a, rest') ↔ rest' = rest ∧ Reads read w a := by
  rw [h.blanks hb]
  constructor
  · exact h.reads hw hrest
  · rintro ⟨rfl, hread⟩
    exact hread _ hrest

/-- What is read does not depend on what stands behind, so one text behind it is enough to tell. -/
theorem reads_iff_of_append {P : Prop}
    (h : ∀ {rest rest' : Text}, Stops rest → (read (w ++ rest) = .ok (a, rest') ↔ rest' = rest ∧ P)) :
    Reads read w a ↔ P :=
  ⟨fun hread => ((h stops_nil).1 (hread [] stops_nil)).2, fun hP _ hrest => (h hrest).2 ⟨rfl, hP⟩⟩

/-! ## Strings -/

theorem whole_string : Whole readString where
  blanks hb t := by rw [readString, readString, skipBlanks_append hb]
  reads {w rest rest' s} hw _ h := by
    obtain ⟨c, u, rfl, -⟩ := hw.exists_cons
    rw [readString, hw.skipBlanks_append] at h
    split at h
    · cases h
    · next heq =>
      cases heq
      obtain ⟨v, hv, rfl⟩ := hw.exists_chars
      rw [List.append_eq, List.append_assoc] at h
      obtain ⟨rfl, hspells⟩ := (readChars_append_iff hv).1 h
      refine ⟨rfl, fun rest _ => ?_⟩
      rw [readString, hw.skipBlanks_append, List.cons_append, List.append_assoc]
      exact readChars_append hspells rest
    · exact absurd h failWrongType_ne_ok

/-! ## Words -/

theorem whole_bool : Whole readBool where
  blanks hb t := by rw [readBool, readBool, skipBlanks_append hb]
  reads {w rest rest' x} hw _ h := by
    have hword : ∃ y, w = writeBool y := by
      obtain ⟨c, u, rfl, -⟩ := hw.exists_cons
      rw [readBool, hw.skipBlanks_append] at h
      split at h
      · cases h
      · next heq =>
        cases heq
        obtain rfl : u = "rue".toList := by simpa using hw.eq_word (by decide)
        exact ⟨true, rfl⟩
      · next heq =>
        cases heq
        obtain rfl : u = "alse".toList := by simpa using hw.eq_word (by decide)
        exact ⟨false, rfl⟩
      · exact absurd h failWrongType_ne_ok
    obtain ⟨y, rfl⟩ := hword
    rw [readBool_append] at h
    cases h
    exact ⟨rfl, fun rest _ => readBool_append _ rest⟩

theorem readNull_append (rest : Text) : readNull ("null".toList ++ rest) = .ok ((), rest) :=
  congrArg (fun r : Except Failure Text => r >>= fun rest => .ok ((), rest)) (skipWord_append "ull".toList rest)

theorem whole_null : Whole readNull where
  blanks hb t := by rw [readNull, readNull, skipBlanks_append hb]
  reads {w rest rest' x} hw _ h := by
    have hword : w = "null".toList := by
      obtain ⟨c, u, rfl, -⟩ := hw.exists_cons
      rw [readNull, hw.skipBlanks_append] at h
      split at h
      · cases h
      · next heq =>
        cases heq
        simpa using hw.eq_word (by decide)
      · exact absurd h failWrongType_ne_ok
    subst hword
    rw [readNull_append] at h
    cases h
    exact ⟨rfl, fun rest _ => readNull_append rest⟩

theorem readOptional_null (read : Text → Except Failure (α × Text)) (rest : Text) :
    readOptional read ("null".toList ++ rest) = .ok (none, rest) :=
  congrArg (fun r : Except Failure Text => r >>= fun rest => .ok (none, rest)) (skipWord_append "ull".toList rest)

/-- What is not absent is read as it is. -/
theorem readOptional_of_ne (hw : IsValue w) (hne : w.head? ≠ some 'n') (rest : Text) :
    readOptional read (w ++ rest) = read (w ++ rest) >>= fun (a, rest) => .ok (some a, rest) := by
  obtain ⟨c, u, rfl, -⟩ := hw.exists_cons
  rw [readOptional, hw.skipBlanks_append]
  split
  · next heq =>
    cases heq
    exact absurd rfl hne
  · rfl

theorem reads_optional_iff (hread : Whole read) (hw : IsValue w) (hne : w.head? ≠ some 'n') {o : Option α} :
    Reads (readOptional read) w o ↔ ∃ a, o = some a ∧ Reads read w a := by
  constructor
  · intro h
    have hsome := h [] stops_nil
    rw [readOptional_of_ne hw hne] at hsome
    obtain ⟨⟨a, t⟩, ha, hsome⟩ := bind_eq_ok_iff.1 hsome
    cases hsome
    exact ⟨a, rfl, (hread.reads hw stops_nil ha).2⟩
  · rintro ⟨a, rfl, ha⟩ rest hrest
    rw [readOptional_of_ne hw hne, ha rest hrest]
    rfl

theorem whole_optional (hread : Whole read) : Whole (readOptional read) where
  blanks hb t := by rw [readOptional, readOptional, skipBlanks_append hb]
  reads {w rest rest' o} hw hrest h := by
    by_cases hne : w.head? = some 'n'
    · obtain ⟨u, rfl⟩ := List.head?_eq_some_iff.1 hne
      obtain rfl : u = "ull".toList := by simpa using hw.eq_word (by decide)
      have hnull : readOptional read ("null".toList ++ rest) = .ok (o, rest') := h
      rw [readOptional_null] at hnull
      cases hnull
      exact ⟨rfl, fun rest _ => readOptional_null read rest⟩
    · rw [readOptional_of_ne hw hne] at h
      obtain ⟨⟨a, t⟩, ha, h⟩ := bind_eq_ok_iff.1 h
      cases h
      obtain ⟨rfl, hreads⟩ := hread.reads hw hrest ha
      exact ⟨rfl, (reads_optional_iff hread hw hne).2 ⟨a, rfl, hreads⟩⟩

/-! ## Numbers -/

/-- The value of the parts of a number; none if it is too large. -/
def NumberParts.value? (n : NumberParts) : Option Number :=
  match n.integer? with
  | some x => some x
  | none =>
    match n.excess?, n.toBinary64 with
    | some _, _ => none
    | none, .infinite _ => none
    | none, x => some (.float x)

theorem readNumber_append_iff {n : NumberParts} (h : SpellsNumber w n) (hrest : Stops rest) {x : Number} :
    readNumber (w ++ rest) = .ok (x, rest') ↔ rest' = rest ∧ n.value? = some x := by
  simp only [readNumber, readParts_append .endInValue h hrest, bind, Except.bind, NumberParts.value?]
  cases n.integer? with
  | some y => simp [eq_comm, and_comm]
  | none =>
    cases n.excess? with
    | some unread => simp [failAt]
    | none =>
      cases n.toBinary64 with
      | infinite negative => simp [failAt]
      | _ => simp [eq_comm, and_comm]

/-- A number where a natural number is expected. -/
def Number.asNatural (x : Number) (rest : Text) : Except Failure (UInt64 × Text) :=
  match x with
  | .natural n => .ok (UInt64.ofNat n, rest)
  | .negated _ => failAt rest (.wrongValue x.describe "usize".toList)
  | .float _ => failAt rest (.wrongType x.describe "usize".toList)

/-- A reader that makes something of a number takes the whole of it. -/
theorem whole_ofNumber (title : Text) (finish : Number → Text → Except Failure (α × Text))
    (hread : ∀ rest, read rest = match skipBlanks rest with
      | [] => failNext [] .endInValue
      | c :: rest =>
        if c = '-' ∨ c.isDigit then readNumber (c :: rest) >>= fun (x, rest) => finish x rest
        else failWrongType title (c :: rest))
    (hfinish : ∀ {x : Number} {rest rest' : Text} {a : α}, finish x rest = .ok (a, rest') →
      rest' = rest ∧ ∀ rest, finish x rest = .ok (a, rest)) : Whole read where
  blanks hb t := by rw [hread, hread, skipBlanks_append hb]
  reads {w rest rest' a} hw hrest h := by
    obtain ⟨c, u, rfl, -⟩ := hw.exists_cons
    rw [hread, hw.skipBlanks_append, List.cons_append] at h
    dsimp only at h
    split at h
    · next hc =>
      obtain ⟨n, hn⟩ := hw.exists_number hc
      obtain ⟨⟨x, t⟩, hx, hmake⟩ := bind_eq_ok_iff.1 h
      obtain ⟨rfl, hvalue⟩ := (readNumber_append_iff hn hrest).1 hx
      obtain ⟨rfl, hmade⟩ := hfinish hmake
      refine ⟨rfl, fun rest hrest => ?_⟩
      rw [hread, hw.skipBlanks_append, List.cons_append]
      dsimp only
      rw [if_pos hc]
      exact bind_eq_ok_iff.2 ⟨_, (readNumber_append_iff hn hrest).2 ⟨rfl, hvalue⟩, hmade rest⟩
    · exact absurd h failWrongType_ne_ok

theorem whole_float : Whole readFloat := by
  refine whole_ofNumber "f64".toList (fun x rest => .ok (x.toBinary64, rest)) (fun _ => rfl) fun h => ?_
  cases h
  exact ⟨rfl, fun _ => rfl⟩

theorem whole_natural : Whole readNatural := by
  refine whole_ofNumber "usize".toList Number.asNatural (fun _ => rfl) fun {x _ _ _} h => ?_
  cases x with
  | natural n =>
    cases h
    exact ⟨rfl, fun _ => rfl⟩
  | negated n => cases h
  | float x => cases h

end CellFormat.Json
