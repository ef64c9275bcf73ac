import CellFormat.Proofs.Json.Whole
/-!
# The items of lists

A list is read item by item from any JSON list, and so is the list form of a
record: `FillsInOrder` says what the values in it make of the record.
-/

namespace CellFormat.Json

variable {b closing rest rest' w : Text} {items : List Item}

theorem Item.Proper.skipBlanks_text {i : Item} (hi : i.Proper) (more : Text) :
    skipBlanks (i.text ++ more) = i.value ++ (i.after ++ more) := by
  rw [Item.text_append, skipBlanks_append hi.before, hi.value.skipBlanks_append]

theorem length_le_separated_items (hitems : ∀ i ∈ items, i.Proper) (first : Bool) :
    items.length ≤ (separated first (items.map Item.text)).length := by
  have hne : ∀ t ∈ items.map Item.text, t ≠ [] := by
    intro t ht
    obtain ⟨i, hi, rfl⟩ := List.mem_map.1 ht
    exact List.append_ne_nil_of_right_ne_nil _ (List.append_ne_nil_of_left_ne_nil (hitems i hi).value.ne_nil _)
  have hlen := length_le_separated hne first
  rwa [List.length_map] at hlen

/-! ## Lists -/

section
variable {α : Type} {read : Text → Except Failure (α × Text)}

theorem nextElement_closing (hb : IsBlanks b) (hclosing : IsBlanks closing) (first : Bool) (rest : Text) :
    nextElement first (b ++ (closing ++ ']' :: rest)) = .ok (.closed rest) := by
  rw [nextElement, skipBlanks_append hb, skipBlanks_append_cons hclosing (by decide)]
  rfl

theorem nextElement_append {i : Item} (hi : i.Proper) (hb : IsBlanks b) (first : Bool) (more : Text) :
    nextElement first (b ++ ((if first then [] else [',']) ++ (i.text ++ more))) =
      .ok (.item (i.value ++ (i.after ++ more))) := by
  have hskip := hi.skipBlanks_text more
  obtain ⟨c, u, hcu, hc⟩ := hi.value.exists_cons
  have hclose : c ≠ ']' := fun h => hc (by simp [h])
  rw [hcu, List.cons_append] at hskip ⊢
  cases first with
  | true => simp [nextElement, skipBlanks_append hb, hskip]
  | false =>
    rw [if_neg Bool.false_ne_true, List.singleton_append, nextElement, skipBlanks_append_cons hb (by decide)]
    simp [hskip, hclose]

theorem readElements_item {fuel : Nat} {first : Bool} {t : Text} (h : nextElement first t = .ok (.item rest)) :
    readElements read (fuel + 1) first t = read rest >>= fun (a, rest) =>
      readElements read fuel false rest >>= fun (as, rest) => .ok (a :: as, rest) := by
  rw [readElements, h]
  rfl

theorem readElements_append_iff (hread : Whole read) (hitems : ∀ i ∈ items, i.Proper) {fuel : Nat}
    (hfuel : items.length < fuel) {first : Bool} (hb : IsBlanks b) (hclosing : IsBlanks closing) {as : List α} :
    readElements read fuel first (b ++ (separated first (items.map Item.text) ++ (closing ++ ']' :: rest))) =
        .ok (as, rest') ↔
      rest' = rest ∧ List.Forall₂ (fun i a => Reads read i.value a) items as := by
  induction items generalizing b fuel first as with
  | nil =>
    obtain ⟨fuel, rfl⟩ := Nat.exists_eq_add_one_of_ne_zero (Nat.ne_of_gt hfuel)
    rw [List.map_nil, separated, List.nil_append, readElements, nextElement_closing hb hclosing]
    constructor
    · rintro ⟨⟩
      exact ⟨rfl, .nil⟩
    · rintro ⟨rfl, ⟨⟩⟩
      rfl
  | cons i items ih =>
    obtain ⟨hi, hitems⟩ := List.forall_mem_cons.1 hitems
    obtain ⟨fuel, rfl⟩ := Nat.exists_eq_add_one_of_ne_zero (Nat.ne_of_gt (Nat.zero_lt_of_lt hfuel))
    have hmore {as : List α} : readElements read fuel false
        (i.after ++ (separated false (items.map Item.text) ++ (closing ++ ']' :: rest))) = .ok (as, rest') ↔ _ :=
      ih hitems (Nat.lt_of_succ_lt_succ hfuel) hi.after
    have hstops := (stops_separated (.inl rfl) hclosing (items.map Item.text) rest).blanks hi.after
    rw [List.map_cons, separated, List.append_assoc, List.append_assoc,
      readElements_item (nextElement_append hi hb first _)]
    generalize separated false (items.map Item.text) ++ (closing ++ ']' :: rest) = more at hmore hstops
    constructor
    · intro h
      obtain ⟨⟨a, t⟩, ha, h⟩ := bind_eq_ok_iff.1 h
      obtain ⟨rfl, hreads⟩ := hread.reads hi.value hstops ha
      obtain ⟨⟨as', t⟩, has, h⟩ := bind_eq_ok_iff.1 h
      cases h
      obtain ⟨rfl, hall⟩ := hmore.1 has
      exact ⟨rfl, .cons hreads hall⟩
    · rintro ⟨rfl, hall⟩
      cases hall with
      | cons ha has => exact bind_eq_ok_iff.2 ⟨_, ha _ hstops, bind_eq_ok_iff.2 ⟨_, hmore.2 ⟨rfl, has⟩, rfl⟩⟩

/-- A list in any layout is read element by element. -/
theorem readList_append_iff (hread : Whole read) (hw : IsList w items) {as : List α} :
    readList (some read) (w ++ rest) = .ok (as, rest') ↔
      rest' = rest ∧ List.Forall₂ (fun i a => Reads read i.value a) items as := by
  obtain ⟨closing, hclosing, hitems, rfl⟩ := hw
  have hlen := length_le_separated_items hitems true
  rw [listText_append, readList, skipBlanks_cons (by decide)]
  refine readElements_append_iff hread hitems ?_ isBlanks_nil hclosing
  rw [List.length_append]
  omega

theorem reads_list_iff (hread : Whole read) (hw : IsList w items) {as : List α} :
    Reads (readList (some read)) w as ↔ List.Forall₂ (fun i a => Reads read i.value a) items as :=
  reads_iff_of_append fun _ => readList_append_iff hread hw

theorem whole_list (hread : Whole read) : Whole (readList (some read)) where
  blanks hb t := by rw [readList, readList, skipBlanks_append hb]
  reads {w rest rest' as} hw _ h := by
    have hlist : ∃ items, IsList w items := by
      obtain ⟨c, u, rfl, -⟩ := hw.exists_cons
      rw [readList, hw.skipBlanks_append] at h
      split at h
      · cases h
      · next heq =>
        cases heq
        exact hw.exists_items
      · exact absurd h failWrongType_ne_ok
    obtain ⟨items, hitems⟩ := hlist
    obtain ⟨rfl, hall⟩ := (readList_append_iff hread hitems).1 h
    exact ⟨rfl, (reads_list_iff hread hitems).2 hall⟩

theorem whole_list_none : Whole (readList (none : Option (Text → Except Failure (α × Text)))) where
  blanks hb t := by rw [readList, readList, skipBlanks_append hb]
  reads _ _ h := absurd h readList_none_ne_ok

end

/-! ## The list form of a record -/

section
variable {φ α : Type} {shape : RecordShape φ α}

/-- What the values of the list form make of a record: each changes the next of the fields. -/
inductive FillsInOrder (shape : RecordShape φ α) : List φ → α → List Item → α → Prop
  | done (fields : List φ) (r : α) : FillsInOrder shape fields r [] r
  | put {f : φ} {fields : List φ} {r r' : α} {i : Item} {items : List Item} {change : α → α}
      (hvalue : Reads (shape.read f) i.value change) (h : FillsInOrder shape fields (change r) items r') :
      FillsInOrder shape (f :: fields) r (i :: items) r'

theorem closeList_append (hb : IsBlanks b) (hclosing : IsBlanks closing) (rest : Text) :
    closeList (b ++ (closing ++ ']' :: rest)) = .ok rest := by
  rw [closeList, skipBlanks_append hb, skipBlanks_append_cons hclosing (by decide)]
  rfl

theorem skipBlanks_of_closeList {t : Text} (h : closeList t = .ok rest) : skipBlanks t = ']' :: rest := by
  unfold closeList at h
  split at h
  · cases h
  · next heq =>
    cases h
    exact heq
  · split at h <;> cases h
  · cases h

/-- There may be no more values than fields. -/
theorem closeList_ne_ok {i : Item} (hi : i.Proper) (hb : IsBlanks b) (first : Bool) (more : Text) :
    closeList (b ++ ((if first then [] else [',']) ++ (i.text ++ more))) ≠ .ok rest := by
  intro h
  have hskip := skipBlanks_of_closeList h
  rw [skipBlanks_append hb] at hskip
  cases first with
  | true =>
    obtain ⟨c, u, hcu, hc⟩ := hi.value.exists_cons
    rw [if_pos rfl, List.nil_append, hi.skipBlanks_text, hcu] at hskip
    rw [(List.cons.inj hskip).1] at hc
    exact absurd hc (by decide)
  | false =>
    rw [if_neg Bool.false_ne_true, List.singleton_append, skipBlanks_cons (by decide)] at hskip
    cases hskip

theorem readFields_item {f : φ} {fields : List φ} {first : Bool} {r : α} {t : Text}
    (h : nextElement first t = .ok (.item rest)) :
    readFields shape (f :: fields) first r t = shape.read f rest >>= fun (change, rest) =>
      readFields shape fields false (change r) rest := by
  rw [readFields, h]
  rfl

theorem readFields_append_iff (hread : ∀ f, Whole (shape.read f)) (hitems : ∀ i ∈ items, i.Proper)
    {fields : List φ} {first : Bool} (hb : IsBlanks b) (hclosing : IsBlanks closing) {r r' : α} :
    readFields shape fields first r
        (b ++ (separated first (items.map Item.text) ++ (closing ++ ']' :: rest))) = .ok (r', rest') ↔
      rest' = rest ∧ FillsInOrder shape fields r items r' := by
  induction items generalizing b fields first r with
  | nil =>
    rw [List.map_nil, separated, List.nil_append]
    have hread : readFields shape fields first r (b ++ (closing ++ ']' :: rest)) = .ok (r, rest) := by
      cases fields with
      | nil =>
        rw [readFields, closeList_append hb hclosing]
        rfl
      | cons f fields =>
        rw [readFields, nextElement_closing hb hclosing]
        rfl
    rw [hread]
    constructor
    · rintro ⟨⟩
      exact ⟨rfl, .done _ _⟩
    · rintro ⟨rfl, ⟨⟩⟩
      rfl
  | cons i items ih =>
    obtain ⟨hi, hitems⟩ := List.forall_mem_cons.1 hitems
    have hmore {fields : List φ} {r : α} : readFields shape fields false r
        (i.after ++ (separated false (items.map Item.text) ++ (closing ++ ']' :: rest))) = .ok (r', rest') ↔ _ :=
      ih hitems hi.after
    have hstops := (stops_separated (.inl rfl) hclosing (items.map Item.text) rest).blanks hi.after
    rw [List.map_cons, separated, List.append_assoc, List.append_assoc]
    generalize separated false (items.map Item.text) ++ (closing ++ ']' :: rest) = more at hmore hstops
    cases fields with
    | nil =>
      constructor
      · intro h
        rw [readFields] at h
        obtain ⟨t, ht, -⟩ := bind_eq_ok_iff.1 h
        exact absurd ht (closeList_ne_ok hi hb first more)
      · rintro ⟨-, ⟨⟩⟩
    | cons f fields =>
      rw [readFields_item (nextElement_append hi hb first more)]
      constructor
      · intro h
        obtain ⟨⟨change, t⟩, hchange, h⟩ := bind_eq_ok_iff.1 h
        obtain ⟨rfl, hreads⟩ := (hread f).reads hi.value hstops hchange
        obtain ⟨rfl, hfills⟩ := hmore.1 h
        exact ⟨rfl, .put hreads hfills⟩
      · rintro ⟨rfl, hfills⟩
        cases hfills with
        | put hreads hfills => exact bind_eq_ok_iff.2 ⟨_, hreads _ hstops, hmore.2 ⟨rfl, hfills⟩⟩

end

end CellFormat.Json
