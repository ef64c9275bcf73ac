import CellFormat.Proofs.Json.Places
import CellFormat.Proofs.Payload.Accepted
/-!
# The records inside of a payload

Payloads, display formats and header overrides are records, one inside another.
Their readers take whole values (`Payload.whole_read`), and what comes from
different members does not get in each other's way (`Payload.lawful_shape`).
-/

namespace CellFormat

open Json

/-! ## Readers -/

section
variable {α β : Type} {read : Text → Except Failure (β × Text)}

theorem Json.reading_eq_ok_iff {set : β → α → α} {r : Except Failure (β × Text)} {change : α → α} {rest : Text} :
    reading set r = .ok (change, rest) ↔ ∃ b, r = .ok (b, rest) ∧ change = set b := by
  constructor
  · exact eq_of_reading
  · rintro ⟨b, rfl, rfl⟩
    rfl

theorem Json.Whole.reading (hread : Whole read) (set : β → α → α) :
    Whole fun rest => CellFormat.reading set (read rest) where
  blanks hb t := by rw [hread.blanks hb]
  reads {w rest rest' change} hw hrest h := by
    obtain ⟨b, hb, rfl⟩ := reading_eq_ok_iff.1 h
    obtain ⟨rfl, hreads⟩ := hread.reads hw hrest hb
    exact ⟨rfl, fun rest hrest => reading_eq_ok_iff.2 ⟨b, hreads rest hrest, rfl⟩⟩

theorem Json.reads_reading_iff (hread : Whole read) {set : β → α → α} {w : Text} (hw : IsValue w) {change : α → α} :
    Reads (fun rest => CellFormat.reading set (read rest)) w change ↔ ∃ b, Reads read w b ∧ change = set b := by
  constructor
  · intro h
    obtain ⟨b, hb, rfl⟩ := reading_eq_ok_iff.1 (h [] stops_nil)
    exact ⟨b, (hread.reads hw stops_nil hb).2, rfl⟩
  · rintro ⟨b, hb, rfl⟩ rest hrest
    exact reading_eq_ok_iff.2 ⟨b, hb rest hrest, rfl⟩

theorem Json.ReadsThrough.reading (hread : Whole read) (set : β → α → α) :
    ReadsThrough (fun rest => CellFormat.reading set (read rest)) read id := by
  intro v change hv h
  obtain ⟨b, hb, rfl⟩ := (reads_reading_iff hread hv.isValue).1 h
  exact ⟨b, hb, fun v' hv' h' => (reads_reading_iff hread hv'.isValue).2 ⟨b, h', rfl⟩⟩

end

namespace CellKind

theorem readTag_append_iff {t rest rest' : Text} (ht : IsChars t) {k : CellKind} :
    readTag (t ++ '"' :: rest) = .ok (k, rest') ↔ rest' = rest ∧ ∃ tag, Spells t tag ∧ k = ofTag tag := by
  constructor
  · intro h
    obtain ⟨⟨tag, u⟩, hread, h⟩ := bind_eq_ok_iff.1 h
    cases h
    obtain ⟨rfl, hspells⟩ := (readChars_append_iff ht).1 hread
    exact ⟨rfl, tag, hspells, rfl⟩
  · rintro ⟨rfl, tag, hspells, rfl⟩
    exact bind_eq_ok_iff.2 ⟨_, readChars_append hspells _, rfl⟩

/-- The end of the object has to come after its first member. -/
theorem readObject_append_iff {ms : List Member} (hms : ∀ m ∈ ms, m.Proper) {closing rest rest' : Text}
    (hclosing : IsBlanks closing) {k : CellKind} :
    readObject (separated true (ms.map Member.text) ++ (closing ++ '}' :: rest)) = .ok (k, rest') ↔
      rest' = rest ∧ ∃ m tag, ms = [m] ∧ Spells m.key tag ∧ Reads readNull m.item.value () ∧ k = ofTag tag := by
  cases ms with
  | nil =>
    rw [List.map_nil, separated, List.nil_append, readObject, skipBlanks_append_cons hclosing (by decide)]
    constructor
    · rintro ⟨⟩
    · rintro ⟨-, _, _, ⟨⟩, -⟩
  | cons m ms =>
    obtain ⟨hm, hms⟩ := List.forall_mem_cons.1 hms
    have hstops := (stops_separated (.inr rfl) hclosing (ms.map Member.text) rest).blanks hm.item.after
    have hend : skipBlanks (m.item.after ++ (separated false (ms.map Member.text) ++ (closing ++ '}' :: rest))) =
        if ms = [] then '}' :: rest else separated false (ms.map Member.text) ++ (closing ++ '}' :: rest) := by
      rw [skipBlanks_append hm.item.after]
      cases ms with
      | nil => exact skipBlanks_append_cons hclosing (by decide) rest
      | cons n ms => exact skipBlanks_cons (by decide) _
    rw [List.map_cons, separated, if_pos rfl, List.nil_append, List.append_assoc, Member.text_append, readObject,
      skipBlanks_append_cons hm.before (by decide)]
    constructor
    · intro h
      obtain ⟨⟨k', t⟩, htag, h⟩ := bind_eq_ok_iff.1 h
      obtain ⟨rfl, tag, hspells, rfl⟩ := (readTag_append_iff hm.key).1 htag
      obtain ⟨t, ht, h⟩ := bind_eq_ok_iff.1 h
      rw [skipColon_append hm.between] at ht
      cases ht
      obtain ⟨⟨⟨⟩, t⟩, ht, h⟩ := bind_eq_ok_iff.1 h
      rw [Item.text_append] at ht
      obtain ⟨rfl, hreads⟩ := (whole_null.read_append_iff hm.value hm.item.before hstops).1 ht
      dsimp only at h
      rw [hend] at h
      cases ms with
      | nil =>
        cases h
        exact ⟨rfl, m, tag, rfl, hspells, hreads, rfl⟩
      | cons n ms => cases h
    · rintro ⟨rfl, _, tag, ⟨⟩, hspells, hreads, rfl⟩
      have hvalue := (whole_null.read_append_iff hm.value hm.item.before hstops).2 ⟨rfl, hreads⟩
      rw [← Item.text_append] at hvalue
      refine bind_eq_ok_iff.2 ⟨_, (readTag_append_iff hm.key).2 ⟨rfl, tag, hspells, rfl⟩, ?_⟩
      refine bind_eq_ok_iff.2 ⟨_, skipColon_append hm.between _, bind_eq_ok_iff.2 ⟨_, hvalue, ?_⟩⟩
      dsimp only
      rw [hend]
      rfl

theorem read_object_iff {room : Nat} {w : Text} {ms : List Member} (hw : IsObject w ms) {rest rest' : Text}
    {k : CellKind} :
    CellKind.read room (w ++ rest) = .ok (k, rest') ↔ rest' = rest ∧ room ≠ 0 ∧
      ∃ m tag, ms = [m] ∧ Spells m.key tag ∧ Reads readNull m.item.value () ∧ k = ofTag tag := by
  obtain ⟨closing, hclosing, hms, rfl⟩ := hw
  rw [objectText_append, CellKind.read, skipBlanks_cons (by decide)]
  by_cases hroom : room = 0
  · simp [hroom, failNext]
  · rw [and_iff_right hroom, ← readObject_append_iff hms hclosing]
    simp [hroom]

theorem whole_read (room : Nat) : Whole (CellKind.read room) where
  blanks hb t := by rw [CellKind.read, CellKind.read, skipBlanks_append hb]
  reads {w rest rest' k} hw _ h := by
    have hkind : (∃ t, IsChars t ∧ w = '"' :: (t ++ ['"'])) ∨ ∃ ms, IsObject w ms := by
      obtain ⟨c, u, rfl, -⟩ := hw.exists_cons
      rw [CellKind.read, hw.skipBlanks_append] at h
      split at h
      · cases h
      · next heq =>
        cases heq
        obtain ⟨t, ht, rfl⟩ := hw.exists_chars
        exact .inl ⟨t, ht, rfl⟩
      · next heq =>
        cases heq
        exact .inr hw.exists_members
      · cases h
    rcases hkind with ⟨t, ht, rfl⟩ | ⟨ms, hms⟩
    · have hstring (rest : Text) : CellKind.read room ('"' :: (t ++ ['"']) ++ rest) = readTag (t ++ '"' :: rest) := by
        rw [CellKind.read, hw.skipBlanks_append, List.cons_append, List.append_assoc]
        rfl
      rw [hstring] at h
      obtain ⟨rfl, htag⟩ := (readTag_append_iff ht).1 h
      exact ⟨rfl, fun rest _ => (hstring rest).trans ((readTag_append_iff ht).2 ⟨rfl, htag⟩)⟩
    · obtain ⟨rfl, hobject⟩ := (read_object_iff hms).1 h
      exact ⟨rfl, fun _ _ => (read_object_iff hms).2 ⟨rfl, hobject⟩⟩

end CellKind

/-! ## Shapes -/

theorem DisplayFormat.whole_shape (f : DisplayFormat.Field) : Whole (DisplayFormat.shape.read f) := by
  unfold shape
  cases f <;> dsimp only
  case pattern => exact whole_string.reading _
  case locale => exact (whole_optional whole_string).reading _

theorem HeaderOverride.whole_shape (f : HeaderOverride.Field) : Whole (HeaderOverride.shape.read f) := by
  unfold shape
  cases f
  dsimp only
  exact whole_string.reading _

theorem DisplayFormat.whole_read (room : Nat) : Whole (DisplayFormat.read room) := by
  unfold DisplayFormat.read
  split
  · exact whole_record_none
  · exact whole_record whole_shape

theorem HeaderOverride.whole_read (room : Nat) : Whole (HeaderOverride.read room) := by
  unfold HeaderOverride.read
  split
  · exact whole_record_none
  · exact whole_record whole_shape

theorem HeaderOverride.whole_readAll (room : Nat) : Whole (HeaderOverride.readAll room) := by
  cases room with
  | zero => exact whole_list_none
  | succ room => exact whole_list (whole_read room)

namespace Payload

theorem whole_shape {room : Nat} {readCells : Text → Except Failure (List Payload × Text)} (hcells : Whole readCells)
    (f : Field) : Whole ((shape room readCells).read f) := by
  unfold shape
  cases f <;> dsimp only
  case kind => exact (CellKind.whole_read room).reading _
  case text => exact (whole_optional whole_string).reading _
  case number => exact (whole_optional whole_float).reading _
  case uri => exact (whole_optional whole_string).reading _
  case displayFormat => exact (whole_optional (DisplayFormat.whole_read room)).reading _
  case headerOverrides => exact (whole_optional (HeaderOverride.whole_readAll room)).reading _
  case isHeader => exact whole_bool.reading _
  case rows => exact whole_natural.reading _
  case cols => exact whole_natural.reading _
  case cells => exact hcells.reading _

theorem whole_read (room : Nat) : Whole (read room) ∧ Whole (readCells room) := by
  induction room with
  | zero =>
    have hnone : Whole (readRecord title empty (none : Option (RecordShape Field Payload))) := whole_record_none
    exact ⟨hnone, whole_list_none⟩
  | succ room ih => exact ⟨whole_record (whole_shape ih.2), whole_list ih.1⟩

/-! ## Different members -/

/-- The changes that a member makes: it sets its own part of the payload. -/
inductive Changes : Field → (Payload → Payload) → Prop
  | kind (k : CellKind) : Changes .kind (updateCell fun c => { c with kind := k })
  | text (t : Option Text) : Changes .text (updateCell fun c => { c with text := t })
  | number (n : Option Binary64) : Changes .number (updateCell fun c => { c with number := n })
  | uri (t : Option Text) : Changes .uri (updateCell fun c => { c with uri := t })
  | displayFormat (f : Option DisplayFormat) :
      Changes .displayFormat (updateCell fun c => { c with displayFormat := f })
  | headerOverrides (hs : Option (List HeaderOverride)) :
      Changes .headerOverrides (updateCell fun c => { c with headerOverrides := hs })
  | isHeader (b : Bool) : Changes .isHeader (updateCell fun c => { c with isHeader := b })
  | rows (n : UInt64) : Changes .rows (updateCell fun c => { c with rows := n })
  | cols (n : UInt64) : Changes .cols (updateCell fun c => { c with cols := n })
  | cells (ps : List Payload) : Changes .cells fun p => { p with cells := ps }

theorem changes_of_read {room : Nat} {readCells : Text → Except Failure (List Payload × Text)} {f : Field}
    {t rest : Text} {change : Payload → Payload} (h : (shape room readCells).read f t = .ok (change, rest)) :
    Changes f change := by
  unfold shape at h
  cases f <;> dsimp only at h <;> obtain ⟨_, -, rfl⟩ := eq_of_reading h <;> constructor

theorem Changes.commute {f g : Field} {c d : Payload → Payload} (hc : Changes f c) (hd : Changes g d) (hne : f ≠ g)
    (p : Payload) : c (d p) = d (c p) := by
  cases hc <;> cases hd <;> first | rfl | exact absurd rfl hne

theorem lawful_shape {room : Nat} {readCells : Text → Except Failure (List Payload × Text)}
    (hcells : Whole readCells) : Lawful (shape room readCells) where
  whole := whole_shape hcells
  commute hne hc hd := (changes_of_read (hc [] stops_nil)).commute (changes_of_read (hd [] stops_nil)) hne

end Payload

theorem DisplayFormat.lawful_shape : Lawful DisplayFormat.shape where
  whole := whole_shape
  commute := by
    intro f g v w c d hne hc hd r
    have hc := hc [] stops_nil
    have hd := hd [] stops_nil
    unfold shape at hc hd
    cases f <;> cases g <;> dsimp only at hc hd <;> obtain ⟨_, -, rfl⟩ := eq_of_reading hc <;>
      obtain ⟨_, -, rfl⟩ := eq_of_reading hd <;> first | rfl | exact absurd rfl hne

theorem HeaderOverride.lawful_shape : Lawful HeaderOverride.shape where
  whole := whole_shape
  commute {f g} _ _ _ _ hne := absurd (by cases f; cases g; rfl) hne

end CellFormat
