import CellFormat.Proofs.Json.Items
/-!
# The members of objects

A record is read member by member from any object. `Fills` says what the members
make of a record: each known one changes it, none of them comes twice, and the
others are passed over. Reading gives exactly that (`reads_object_iff`).
-/

namespace CellFormat.Json

variable {b closing rest rest' w : Text}

/-! ## Objects -/

theorem nextKey_closing (hb : IsBlanks b) (hclosing : IsBlanks closing) (first : Bool) (rest : Text) :
    nextKey first (b ++ (closing ++ '}' :: rest)) = .ok (.closed rest) := by
  rw [nextKey, skipBlanks_append hb, skipBlanks_append_cons hclosing (by decide)]
  rfl

theorem nextKey_append {m : Member} (hm : m.Framed) (hb : IsBlanks b) (first : Bool) (more : Text) :
    nextKey first (b ++ ((if first then [] else [',']) ++ (m.text ++ more))) =
      .ok (.item (m.key ++ '"' :: (m.between ++ ':' :: (m.item.text ++ more)))) := by
  have hskip (t : Text) : skipBlanks (m.before ++ '"' :: t) = '"' :: t :=
    skipBlanks_append_cons hm.before (by decide) t
  rw [Member.text_append]
  cases first with
  | true =>
    rw [if_pos rfl, List.nil_append, nextKey, skipBlanks_append hb, hskip]
    rfl
  | false =>
    rw [if_neg Bool.false_ne_true, List.singleton_append, nextKey, skipBlanks_append_cons hb (by decide)]
    simp [hskip, openKey]

section
variable {φ α : Type} {shape : RecordShape φ α}

/-- What the members of an object make of a record: those with known names, each of which has to be new,
change it. `seen` are the fields that have come already. -/
inductive Fills (shape : RecordShape φ α) : List φ → α → List Member → α → Prop
  | done (seen : List φ) (r : α) : Fills shape seen r [] r
  | pass {seen : List φ} {r r' : α} {m : Member} {ms : List Member} {name : Text} (hkey : Spells m.key name)
      (hname : shape.fields.lookup name = none) (h : Fills shape seen r ms r') : Fills shape seen r (m :: ms) r'
  | put {seen : List φ} {r r' : α} {m : Member} {ms : List Member} {name : Text} {f : φ} {change : α → α}
      (hkey : Spells m.key name) (hname : shape.fields.lookup name = some f) (hnew : f ∉ seen)
      (hvalue : Reads (shape.read f) m.item.value change) (h : Fills shape (f :: seen) (change r) ms r') :
      Fills shape seen r (m :: ms) r'

variable [DecidableEq φ]

theorem readMembers_item {fuel : Nat} {first : Bool} {seen : List φ} {r : α} {t : Text}
    (h : nextKey first t = .ok (.item rest)) :
    readMembers shape (fuel + 1) first seen r t = readChars rest >>= fun (key, rest) =>
      match shape.fields.lookup key with
      | none => skipColon rest >>= fun rest => skipValue rest >>= fun rest => readMembers shape fuel false seen r rest
      | some f =>
        if f ∈ seen then failDuplicate key rest
        else skipColon rest >>= fun rest => shape.read f rest >>= fun (change, rest) =>
          readMembers shape fuel false (f :: seen) (change r) rest := by
  rw [readMembers, h]
  rfl

theorem failDuplicate_ne_ok {β : Type} {name : Text} {x : β} : failDuplicate name rest ≠ .ok x := by
  intro h
  unfold failDuplicate at h
  split at h <;> cases h

/-- One member: it is passed over, or it changes the record. -/
theorem readMembers_append_cons (hread : ∀ f, Whole (shape.read f)) {m : Member} (hm : m.Proper) (hb : IsBlanks b)
    {more : Text} (hstops : Stops (m.item.after ++ more)) {fuel : Nat} {first : Bool} {seen : List φ} {r : α}
    {x : α × Text} :
    readMembers shape (fuel + 1) first seen r (b ++ ((if first then [] else [',']) ++ (m.text ++ more))) = .ok x ↔
      (∃ name, Spells m.key name ∧ shape.fields.lookup name = none ∧
        readMembers shape fuel false seen r (m.item.after ++ more) = .ok x) ∨
      ∃ name f change, Spells m.key name ∧ shape.fields.lookup name = some f ∧ f ∉ seen ∧
        Reads (shape.read f) m.item.value change ∧
          readMembers shape fuel false (f :: seen) (change r) (m.item.after ++ more) = .ok x := by
  have hcolon := skipColon_append hm.between (m.item.text ++ more)
  have hskip := skipValue_append hm.value hm.item.before hstops
  rw [← Item.text_append] at hskip
  have hvalue (f : φ) {t : Text} {change : α → α} : shape.read f (m.item.text ++ more) = .ok (change, t) ↔
      t = m.item.after ++ more ∧ Reads (shape.read f) m.item.value change := by
    rw [Item.text_append]
    exact (hread f).read_append_iff hm.value hm.item.before hstops
  rw [readMembers_item (nextKey_append hm.toFramed hb first _)]
  constructor
  · intro h
    obtain ⟨⟨name, t⟩, hkey, h⟩ := bind_eq_ok_iff.1 h
    obtain ⟨rfl, hspells⟩ := (readChars_append_iff hm.key).1 hkey
    dsimp only at h
    split at h
    · next hname =>
      rw [hcolon] at h
      obtain ⟨t, ht, h⟩ := bind_eq_ok_iff.1 h
      cases ht
      obtain ⟨t, ht, h⟩ := bind_eq_ok_iff.1 h
      rw [hskip] at ht
      cases ht
      exact .inl ⟨name, hspells, hname, h⟩
    · next f hname =>
      split at h
      · exact absurd h failDuplicate_ne_ok
      · next hnew =>
        rw [hcolon] at h
        obtain ⟨t, ht, h⟩ := bind_eq_ok_iff.1 h
        cases ht
        obtain ⟨⟨change, t⟩, hchange, h⟩ := bind_eq_ok_iff.1 h
        obtain ⟨rfl, hreads⟩ := (hvalue f).1 hchange
        exact .inr ⟨name, f, change, hspells, hname, hnew, hreads, h⟩
  · rintro (⟨name, hkey, hname, h⟩ | ⟨name, f, change, hkey, hname, hnew, hreads, h⟩)
    · refine bind_eq_ok_iff.2 ⟨_, readChars_append hkey _, ?_⟩
      simp only [hname, hcolon]
      exact bind_eq_ok_iff.2 ⟨_, rfl, bind_eq_ok_iff.2 ⟨_, hskip, h⟩⟩
    · refine bind_eq_ok_iff.2 ⟨_, readChars_append hkey _, ?_⟩
      simp only [hname, if_neg hnew, hcolon]
      exact bind_eq_ok_iff.2 ⟨_, rfl, bind_eq_ok_iff.2 ⟨_, (hvalue f).2 ⟨rfl, hreads⟩, h⟩⟩

variable {ms : List Member}

theorem readMembers_append_iff (hread : ∀ f, Whole (shape.read f)) (hms : ∀ m ∈ ms, m.Proper) {fuel : Nat}
    (hfuel : ms.length < fuel) {first : Bool} (hb : IsBlanks b) (hclosing : IsBlanks closing) {seen : List φ}
    {r r' : α} :
    readMembers shape fuel first seen r
        (b ++ (separated first (ms.map Member.text) ++ (closing ++ '}' :: rest))) = .ok (r', rest') ↔
      rest' = rest ∧ Fills shape seen r ms r' := by
  induction ms generalizing b fuel first seen r with
  | nil =>
    obtain ⟨fuel, rfl⟩ := Nat.exists_eq_add_one_of_ne_zero (Nat.ne_of_gt hfuel)
    rw [List.map_nil, separated, List.nil_append, readMembers, nextKey_closing hb hclosing]
    constructor
    · rintro ⟨⟩
      exact ⟨rfl, .done _ _⟩
    · rintro ⟨rfl, ⟨⟩⟩
      rfl
  | cons m ms ih =>
    obtain ⟨hm, hms⟩ := List.forall_mem_cons.1 hms
    obtain ⟨fuel, rfl⟩ := Nat.exists_eq_add_one_of_ne_zero (Nat.ne_of_gt (Nat.zero_lt_of_lt hfuel))
    have hmore {seen : List φ} {r : α} : readMembers shape fuel false seen r
        (m.item.after ++ (separated false (ms.map Member.text) ++ (closing ++ '}' :: rest))) = .ok (r', rest') ↔ _ :=
      ih hms (Nat.lt_of_succ_lt_succ hfuel) hm.item.after
    have hstops := (stops_separated (.inr rfl) hclosing (ms.map Member.text) rest).blanks hm.item.after
    rw [List.map_cons, separated, List.append_assoc, List.append_assoc, readMembers_append_cons hread hm hb hstops]
    constructor
    · rintro (⟨name, hkey, hname, h⟩ | ⟨name, f, change, hkey, hname, hnew, hreads, h⟩)
      · obtain ⟨rfl, hfills⟩ := hmore.1 h
        exact ⟨rfl, .pass hkey hname hfills⟩
      · obtain ⟨rfl, hfills⟩ := hmore.1 h
        exact ⟨rfl, .put hkey hname hnew hreads hfills⟩
    · rintro ⟨rfl, hfills⟩
      cases hfills with
      | pass hkey hname hfills => exact .inl ⟨_, hkey, hname, hmore.2 ⟨rfl, hfills⟩⟩
      | put hkey hname hnew hreads hfills =>
        exact .inr ⟨_, _, _, hkey, hname, hnew, hreads, hmore.2 ⟨rfl, hfills⟩⟩

/-! ## Records -/

theorem length_le_separated_members (ms : List Member) (first : Bool) :
    ms.length ≤ (separated first (ms.map Member.text)).length := by
  have hne : ∀ t ∈ ms.map Member.text, t ≠ [] := by
    intro t ht
    obtain ⟨m, -, rfl⟩ := List.mem_map.1 ht
    exact List.append_ne_nil_of_right_ne_nil _ (List.cons_ne_nil _ _)
  have hlen := length_le_separated hne first
  rwa [List.length_map] at hlen

variable {title : Text} {d r : α}

theorem readRecord_object_iff (hread : ∀ f, Whole (shape.read f)) (hw : IsObject w ms) :
    readRecord title d (some shape) (w ++ rest) = .ok (r, rest') ↔ rest' = rest ∧ Fills shape [] d ms r := by
  obtain ⟨closing, hclosing, hms, rfl⟩ := hw
  have hlen := length_le_separated_members ms true
  rw [objectText_append, readRecord, skipBlanks_cons (by decide)]
  refine readMembers_append_iff hread hms ?_ isBlanks_nil hclosing
  rw [List.length_append]
  omega

theorem readRecord_list_iff (hread : ∀ f, Whole (shape.read f)) {items : List Item} (hw : IsList w items) :
    readRecord title d (some shape) (w ++ rest) = .ok (r, rest') ↔
      rest' = rest ∧ FillsInOrder shape (shape.fields.map (·.2)) d items r := by
  obtain ⟨closing, hclosing, hitems, rfl⟩ := hw
  rw [listText_append, readRecord, skipBlanks_cons (by decide)]
  exact readFields_append_iff hread hitems isBlanks_nil hclosing

theorem reads_object_iff (hread : ∀ f, Whole (shape.read f)) (hw : IsObject w ms) :
    Reads (readRecord title d (some shape)) w r ↔ Fills shape [] d ms r :=
  reads_iff_of_append fun _ => readRecord_object_iff hread hw

theorem reads_inOrder_iff (hread : ∀ f, Whole (shape.read f)) {items : List Item} (hw : IsList w items) :
    Reads (readRecord title d (some shape)) w r ↔ FillsInOrder shape (shape.fields.map (·.2)) d items r :=
  reads_iff_of_append fun _ => readRecord_list_iff hread hw

theorem whole_record (hread : ∀ f, Whole (shape.read f)) : Whole (readRecord title d (some shape)) where
  blanks hb t := by rw [readRecord, readRecord, skipBlanks_append hb]
  reads {w rest rest' r} hw _ h := by
    have hrecord : (∃ ms, IsObject w ms) ∨ ∃ items, IsList w items := by
      obtain ⟨c, u, rfl, -⟩ := hw.exists_cons
      rw [readRecord, hw.skipBlanks_append] at h
      split at h
      · cases h
      · next heq =>
        cases heq
        exact .inl hw.exists_members
      · next heq =>
        cases heq
        exact .inr hw.exists_items
      · exact absurd h failWrongType_ne_ok
    rcases hrecord with ⟨ms, hms⟩ | ⟨items, hitems⟩
    · obtain ⟨rfl, hfills⟩ := (readRecord_object_iff hread hms).1 h
      exact ⟨rfl, (reads_object_iff hread hms).2 hfills⟩
    · obtain ⟨rfl, hfills⟩ := (readRecord_list_iff hread hitems).1 h
      exact ⟨rfl, (reads_inOrder_iff hread hitems).2 hfills⟩

theorem whole_record_none : Whole (readRecord title d (none : Option (RecordShape φ α))) where
  blanks hb t := by rw [readRecord, readRecord, skipBlanks_append hb]
  reads _ _ h := absurd h readRecord_none_ne_ok

end

end CellFormat.Json
