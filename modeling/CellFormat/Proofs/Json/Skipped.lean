import CellFormat.Proofs.Json.Spelling
/-!
# Every value can be passed over

Passing over a value takes the whole of it, whatever comes after it, and no JSON
value is refused (`skipValue_append`): that is by induction on the value, the
steps being counted by its characters.
-/

namespace CellFormat.Json

variable {b closing rest w : Text}

/-! ## What stands behind a value -/

theorem stops_nil : Stops [] := fun c hc => by cases hc

theorem stops_cons {c : Char} (hc : c ∈ [' ', '\n', '\t', '\r', ',', ']', '}']) (t : Text) : Stops (c :: t) := by
  have hstop : ∀ c ∈ [' ', '\n', '\t', '\r', ',', ']', '}'], c.isDigit = false ∧ c ∉ ['.', 'e', 'E'] := by simp
  rintro d ⟨⟩
  exact hstop c hc

theorem Stops.blanks (h : Stops rest) (hb : IsBlanks b) : Stops (b ++ rest) := by
  cases b with
  | nil => exact h
  | cons c b => exact stops_cons (List.mem_append_left [',', ']', '}'] (hb c List.mem_cons_self)) _

/-- Behind an item come a comma and the next one, or the end. -/
theorem stops_separated {close : Char} (hclose : close = ']' ∨ close = '}') (hclosing : IsBlanks closing)
    (ws : List Text) (rest : Text) : Stops (separated false ws ++ (closing ++ close :: rest)) := by
  cases ws with
  | nil =>
    have hend : close ∈ [' ', '\n', '\t', '\r', ',', ']', '}'] := by rcases hclose with rfl | rfl <;> decide
    exact (stops_cons hend rest).blanks hclosing
  | cons w ws => exact stops_cons (by decide) _

theorem Item.text_append (i : Item) (rest : Text) :
    i.text ++ rest = i.before ++ (i.value ++ (i.after ++ rest)) := by
  simp only [Item.text, List.append_assoc]

theorem Member.text_append (m : Member) (rest : Text) :
    m.text ++ rest = m.before ++ '"' :: (m.key ++ '"' :: (m.between ++ ':' :: (m.item.text ++ rest))) := by
  simp only [Member.text, List.append_assoc, List.cons_append]

theorem listText_append (items : List Item) (closing rest : Text) :
    listText items closing ++ rest = '[' :: (separated true (items.map Item.text) ++ (closing ++ ']' :: rest)) := by
  simp only [listText, List.append_assoc, List.cons_append, List.nil_append]

theorem objectText_append (ms : List Member) (closing rest : Text) :
    objectText ms closing ++ rest = '{' :: (separated true (ms.map Member.text) ++ (closing ++ '}' :: rest)) := by
  simp only [objectText, List.append_assoc, List.cons_append, List.nil_append]

theorem skipBlanks_append_cons {c : Char} (hb : IsBlanks b) (hc : c ∉ [' ', '\n', '\t', '\r']) (t : Text) :
    skipBlanks (b ++ c :: t) = c :: t := by
  rw [skipBlanks_append hb, skipBlanks_cons hc]

theorem skipColon_append (hb : IsBlanks b) (t : Text) : skipColon (b ++ ':' :: t) = .ok t := by
  rw [skipColon, skipBlanks_append_cons hb (by decide)]
  rfl

/-! ## One step -/

section
variable {fuel : Nat} {c : Char} {t : Text}

theorem skipValueWithin_number (h : skipBlanks t = c :: rest) (hc : c = '-' ∨ c.isDigit) :
    skipValueWithin (fuel + 1) t = skipNumber (c :: rest) := by
  have hothers : ∀ c ∈ ['n', 't', 'f', '"', '[', '{'], ¬ (c = '-' ∨ c.isDigit) := by simp
  rw [skipValueWithin, h]
  split
  · next heq => cases heq
  iterate 6
    · next heq =>
      cases heq
      exact absurd hc (hothers _ (by decide))
  · next heq =>
    cases heq
    rw [if_pos hc]

theorem skipElementsWithin_first (hw : IsValue w) (h : skipBlanks t = w ++ rest) :
    skipElementsWithin (fuel + 1) true t = skipValueWithin fuel (w ++ rest) >>= skipElementsWithin fuel false := by
  obtain ⟨c, u, rfl, hc⟩ := hw.exists_cons
  rw [skipElementsWithin, h]
  split
  · contradiction
  · next heq =>
    rw [(List.cons.inj heq).1] at hc
    exact absurd hc (by decide)
  · next heq =>
    rw [heq]
    rfl

theorem skipElementsWithin_next (h : skipBlanks t = ',' :: rest) :
    skipElementsWithin (fuel + 1) false t = skipValueWithin fuel rest >>= skipElementsWithin fuel false := by
  rw [skipElementsWithin, h]
  rfl

theorem skipMembersWithin_first (h : skipBlanks t = '"' :: rest) :
    skipMembersWithin (fuel + 1) true t = skipMemberWithin fuel ('"' :: rest) >>= skipMembersWithin fuel false := by
  rw [skipMembersWithin, h]
  rfl

theorem skipMembersWithin_next (h : skipBlanks t = ',' :: rest) :
    skipMembersWithin (fuel + 1) false t = skipMemberWithin fuel rest >>= skipMembersWithin fuel false := by
  rw [skipMembersWithin, h]
  rfl

end

/-! ## Values -/

/-- The value is passed over, three steps for a character and one more being enough. -/
def Passes (w : Text) : Prop :=
  ∀ {fuel : Nat} {t rest : Text}, 3 * w.length ≤ fuel → skipBlanks t = w ++ rest → Stops rest →
    skipValueWithin (fuel + 1) t = .ok rest

theorem passes_word (h : w ∈ ["null".toList, "true".toList, "false".toList]) : Passes w := by
  intro fuel t rest _ hskip _
  rw [skipValueWithin, hskip]
  simp only [List.mem_cons, List.not_mem_nil, or_false] at h
  rcases h with rfl | rfl | rfl
  · exact skipWord_append "ull".toList rest
  · exact skipWord_append "rue".toList rest
  · exact skipWord_append "alse".toList rest

theorem passes_number {n : NumberParts} (h : SpellsNumber w n) : Passes w := by
  intro fuel t rest _ hskip hrest
  have hparts := readParts_append .invalidNumber h hrest
  obtain ⟨c, u, rfl, hc⟩ := h.startsNumber
  rw [List.cons_append] at hskip hparts
  rw [skipValueWithin_number hskip hc, skipNumber, hparts]
  rfl

theorem passes_string {u : Text} (h : IsChars u) : Passes ('"' :: (u ++ ['"'])) := by
  intro fuel t rest _ hskip _
  rw [List.cons_append, List.append_assoc] at hskip
  rw [skipValueWithin, hskip]
  exact skipChars_append h rest

section
variable {items : List Item} {ms : List Member} {fuel : Nat}

theorem skipElementsWithin_append (hframes : ∀ i ∈ items, i.Framed) (hvalues : ∀ i ∈ items, IsValue i.value)
    (hpasses : ∀ i ∈ items, Passes i.value) {first : Bool}
    (hfuel : 3 * (separated first (items.map Item.text)).length + 2 ≤ fuel) (hb : IsBlanks b)
    (hclosing : IsBlanks closing) (rest : Text) :
    skipElementsWithin fuel first (b ++ (separated first (items.map Item.text) ++ (closing ++ ']' :: rest))) =
      .ok rest := by
  induction items generalizing b fuel first with
  | nil =>
    obtain ⟨fuel, rfl⟩ := Nat.exists_eq_add_one_of_ne_zero (n := fuel) (by omega)
    rw [List.map_nil, separated, List.nil_append, skipElementsWithin, skipBlanks_append hb,
      skipBlanks_append_cons hclosing (by decide)]
    rfl
  | cons i items ih =>
    obtain ⟨hframe, hframes⟩ := List.forall_mem_cons.1 hframes
    obtain ⟨hvalue, hvalues⟩ := List.forall_mem_cons.1 hvalues
    obtain ⟨hpass, hpasses⟩ := List.forall_mem_cons.1 hpasses
    have hlen := List.length_pos_iff.2 hvalue.ne_nil
    simp only [List.map_cons, separated, Item.text, List.length_append] at hfuel
    obtain ⟨fuel, rfl⟩ : ∃ k, fuel = k + 2 := Nat.exists_eq_add_of_le' (by omega)
    have hless : 3 * (separated false (items.map Item.text)).length + 2 ≤ fuel + 1 := by omega
    have hmore := ih hframes hvalues hpasses hless hframe.after
    have hstops := (stops_separated (.inl rfl) hclosing (items.map Item.text) rest).blanks hframe.after
    rw [List.map_cons, separated, List.append_assoc, List.append_assoc, Item.text_append]
    generalize separated false (items.map Item.text) ++ (closing ++ ']' :: rest) = more at hmore hstops ⊢
    have hstart := hvalue.skipBlanks_append (i.after ++ more)
    cases first with
    | true =>
      have hfirst : skipBlanks (b ++ (i.before ++ (i.value ++ (i.after ++ more)))) =
          i.value ++ (i.after ++ more) := by
        rw [skipBlanks_append hb, skipBlanks_append hframe.before, hstart]
      rw [if_pos rfl, List.nil_append, skipElementsWithin_first hvalue hfirst, hpass (by omega) hstart hstops]
      exact hmore
    | false =>
      have hnext : skipBlanks (i.before ++ (i.value ++ (i.after ++ more))) = i.value ++ (i.after ++ more) := by
        rw [skipBlanks_append hframe.before, hstart]
      rw [if_neg Bool.false_ne_true, List.singleton_append,
        skipElementsWithin_next (skipBlanks_append_cons hb (by decide) _), hpass (by omega) hnext hstops]
      exact hmore

/-- A member is passed over like its value. -/
theorem skipMemberWithin_append {m : Member} (hframe : m.Framed) (hpass : Passes m.item.value)
    (hvalue : IsValue m.item.value) (hfuel : 3 * m.item.value.length ≤ fuel) (hb : IsBlanks b) {more : Text}
    (hstops : Stops (m.item.after ++ more)) :
    skipMemberWithin (fuel + 2) (b ++ '"' :: (m.key ++ '"' :: (m.between ++ ':' :: (m.item.text ++ more)))) =
      .ok (m.item.after ++ more) := by
  have hnext : skipBlanks (m.item.before ++ (m.item.value ++ (m.item.after ++ more))) =
      m.item.value ++ (m.item.after ++ more) := by
    rw [skipBlanks_append hframe.item.before, hvalue.skipBlanks_append]
  rw [skipMemberWithin, skipBlanks_append_cons hb (by decide)]
  simp only [skipChars_append hframe.key, bind, Except.bind, skipColon_append hframe.between, Item.text_append]
  exact hpass hfuel hnext hstops

theorem skipMembersWithin_append (hframes : ∀ m ∈ ms, m.Framed) (hvalues : ∀ m ∈ ms, IsValue m.item.value)
    (hpasses : ∀ m ∈ ms, Passes m.item.value) {first : Bool}
    (hfuel : 3 * (separated first (ms.map Member.text)).length + 2 ≤ fuel) (hb : IsBlanks b)
    (hclosing : IsBlanks closing) (rest : Text) :
    skipMembersWithin fuel first (b ++ (separated first (ms.map Member.text) ++ (closing ++ '}' :: rest))) =
      .ok rest := by
  induction ms generalizing b fuel first with
  | nil =>
    obtain ⟨fuel, rfl⟩ := Nat.exists_eq_add_one_of_ne_zero (n := fuel) (by omega)
    rw [List.map_nil, separated, List.nil_append, skipMembersWithin, skipBlanks_append hb,
      skipBlanks_append_cons hclosing (by decide)]
    rfl
  | cons m ms ih =>
    obtain ⟨hframe, hframes⟩ := List.forall_mem_cons.1 hframes
    obtain ⟨hvalue, hvalues⟩ := List.forall_mem_cons.1 hvalues
    obtain ⟨hpass, hpasses⟩ := List.forall_mem_cons.1 hpasses
    simp only [List.map_cons, separated, Member.text, Item.text, List.length_append, List.length_cons] at hfuel
    obtain ⟨fuel, rfl⟩ : ∃ k, fuel = k + 3 := Nat.exists_eq_add_of_le' (by omega)
    have hless : 3 * (separated false (ms.map Member.text)).length + 2 ≤ fuel + 2 := by omega
    have hmore := ih hframes hvalues hpasses hless hframe.item.after
    have hstops := (stops_separated (.inr rfl) hclosing (ms.map Member.text) rest).blanks hframe.item.after
    rw [List.map_cons, separated, List.append_assoc, List.append_assoc, Member.text_append]
    generalize separated false (ms.map Member.text) ++ (closing ++ '}' :: rest) = more at hmore hstops ⊢
    have hmember {b : Text} (hb : IsBlanks b) :=
      skipMemberWithin_append hframe hpass hvalue (by omega : 3 * m.item.value.length ≤ fuel) hb hstops
    cases first with
    | true =>
      have hfirst (t : Text) : skipBlanks (b ++ (m.before ++ '"' :: t)) = '"' :: t := by
        rw [skipBlanks_append hb, skipBlanks_append_cons hframe.before (by decide)]
      rw [if_pos rfl, List.nil_append, skipMembersWithin_first (hfirst _), ← List.nil_append ('"' :: _),
        hmember isBlanks_nil]
      exact hmore
    | false =>
      rw [if_neg Bool.false_ne_true, List.singleton_append,
        skipMembersWithin_next (skipBlanks_append_cons hb (by decide) _), hmember hframe.before]
      exact hmore

end

theorem IsValue.passes (h : IsValue w) : Passes w := by
  induction h with
  | word h => exact passes_word h
  | number h => exact passes_number h
  | string h => exact passes_string h
  | list hframes hvalues hclosing ih =>
    intro fuel t rest hfuel hskip _
    rw [listText_append] at hskip
    simp only [listText, List.length_cons, List.length_append] at hfuel
    rw [skipValueWithin, hskip]
    exact skipElementsWithin_append hframes hvalues ih (by omega) isBlanks_nil hclosing rest
  | object hframes hvalues hclosing ih =>
    intro fuel t rest hfuel hskip _
    rw [objectText_append] at hskip
    simp only [objectText, List.length_cons, List.length_append] at hfuel
    rw [skipValueWithin, hskip]
    exact skipMembersWithin_append hframes hvalues ih (by omega) isBlanks_nil hclosing rest

/-- A value is passed over whatever it is, but for what stands behind it. -/
theorem skipValue_append (h : IsValue w) (hb : IsBlanks b) (hrest : Stops rest) :
    skipValue (b ++ (w ++ rest)) = .ok rest := by
  have hskip : skipBlanks (b ++ (w ++ rest)) = w ++ rest := by rw [skipBlanks_append hb, h.skipBlanks_append]
  refine h.passes ?_ hskip hrest
  simp only [List.length_append]
  omega

end CellFormat.Json
