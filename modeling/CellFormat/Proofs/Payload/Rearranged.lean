import CellFormat.Proofs.Payload.Places
import Mathlib.Logic.Relation
/-!
# Payloads from rearranged text

The records in the text of a payload may be objects, and then neither the order
of their members matters nor members under names that the record does not have.
That is so for the payload itself and for every cell, display format and header
override in it, at any depth; and with a known member repeated in one of them,
the text is no payload (`ofJson_of_rearranged`). `Place` says where in the text
such a record stands, and `Place.readsThrough` that what is read from the payload
depends on that place through the record only.
-/

namespace CellFormat

open Json

/-! ## Records by kind -/

/-- The records that a payload consists of. -/
inductive RecordKind where
  | payload
  | displayFormat
  | headerOverride
  deriving DecidableEq, Repr

/-- The fields of a payload by name, whatever room there is. -/
def Payload.fields : List (Text × Payload.Field) := (Payload.shape 0 (Payload.readCells 0)).fields

namespace RecordKind

def Value : RecordKind → Type
  | payload => Payload
  | displayFormat => DisplayFormat
  | headerOverride => HeaderOverride

/-- The reader of a record, if so many containers may be opened. -/
def read : (k : RecordKind) → (room : Nat) → Text → Except Failure (k.Value × Text)
  | payload => Payload.read
  | displayFormat => DisplayFormat.read
  | headerOverride => HeaderOverride.read

/-- The names of the members. -/
def names : RecordKind → List Text
  | payload => Payload.fields.map (·.1)
  | displayFormat => DisplayFormat.shape.fields.map (·.1)
  | headerOverride => HeaderOverride.shape.fields.map (·.1)

/-- A record is read from its members, if a container may be opened. -/
theorem not_reads_or_exists_shape (k : RecordKind) (room : Nat) :
    (∀ {w : Text} {a : k.Value}, ¬ Reads (k.read room) w a) ∨
      ∃ (φ : Type) (_ : DecidableEq φ) (shape : RecordShape φ k.Value) (title : Text) (d : k.Value),
        Lawful shape ∧ shape.fields.map (·.1) = k.names ∧ k.read room = readRecord title d (some shape) := by
  cases room with
  | zero =>
    left
    intro w a h
    cases k with
    | payload => exact readRecord_none_ne_ok (φ := Payload.Field) (d := Payload.empty) (h [] stops_nil)
    | displayFormat => exact readRecord_none_ne_ok (φ := DisplayFormat.Field) (d := ⟨[], none⟩) (h [] stops_nil)
    | headerOverride => exact readRecord_none_ne_ok (φ := HeaderOverride.Field) (d := ⟨[]⟩) (h [] stops_nil)
  | succ room =>
    right
    cases k with
    | payload => exact ⟨_, _, _, _, _, Payload.lawful_shape (Payload.whole_read room).2, rfl, rfl⟩
    | displayFormat => exact ⟨_, _, _, _, _, DisplayFormat.lawful_shape, rfl, rfl⟩
    | headerOverride => exact ⟨_, _, _, _, _, HeaderOverride.lawful_shape, rfl, rfl⟩

variable {k : RecordKind} {room : Nat} {w w' : Text} {ms ms' : List Member} {a : k.Value}

theorem reads_of_rearranged (hw : IsObject w ms) (hw' : IsObject w' ms') (hms : Rearranged k.names ms ms')
    (h : Reads (k.read room) w a) : Reads (k.read room) w' a := by
  obtain hnone | ⟨φ, _, shape, title, d, hshape, hnames, hread⟩ := k.not_reads_or_exists_shape room
  · exact absurd h hnone
  · rw [hread, reads_object_iff hshape.whole hw] at h
    rw [hread, reads_object_iff hshape.whole hw']
    exact h.of_rearranged hshape (hnames ▸ hms)

theorem not_reads_of_repeated (hw' : IsObject w' ms') (hms : Repeated k.names ms ms') :
    ¬ Reads (k.read room) w' a := by
  intro h
  obtain hnone | ⟨φ, _, shape, title, d, hshape, hnames, hread⟩ := k.not_reads_or_exists_shape room
  · exact hnone h
  · rw [hread, reads_object_iff hshape.whole hw'] at h
    exact not_fills_of_repeated hshape (hnames ▸ hms) h

end RecordKind

namespace Payload

/-! ## Where records stand -/

/-- The text of a payload around a record in it that is read. -/
inductive Place : RecordKind → (Text → Text) → Prop
  | self : Place .payload id
  | displayFormat {F : Text → Text} (hF : FieldPlace fields .displayFormat F) : Place .displayFormat F
  | headerOverride {F L : Text → Text} (hF : FieldPlace fields .headerOverrides F) (hL : ElementPlace L) :
      Place .headerOverride (F ∘ L)
  | cell {k : RecordKind} {F L C : Text → Text} (hF : FieldPlace fields .cells F) (hL : ElementPlace L)
      (hC : Place k C) : Place k (F ∘ L ∘ C)

theorem Place.isContainer {k : RecordKind} {C : Text → Text} (hC : Place k C) {v : Text} (hv : IsContainer v) :
    IsContainer (C v) := by
  induction hC with
  | self => exact hv
  | displayFormat hF => exact hF.isContainer hv
  | headerOverride hF hL => exact hF.isContainer (hL.isContainer hv)
  | cell hF hL _ ih => exact hF.isContainer (hL.isContainer ih)

theorem readsThrough_of_succ {k : RecordKind} {C : Text → Text}
    (h : ∀ room, ∃ room', ReadsThrough (read (room + 1)) (k.read room') C) (room : Nat) :
    ∃ room', ReadsThrough (read room) (k.read room') C := by
  cases room with
  | zero =>
    refine ⟨0, .of_not_reads fun h => ?_⟩
    exact readRecord_none_ne_ok (φ := Field) (d := empty) (h [] stops_nil)
  | succ room => exact h room

theorem readsThrough_field {β : Type} (room : Nat) {f : Field} {F : Text → Text} (hF : FieldPlace fields f F)
    {inner : Text → Except Failure (β × Text)} (hinner : Whole inner) (set : β → Payload → Payload)
    (hread : (shape room (readCells room)).read f = fun rest => reading set (inner rest)) :
    ReadsThrough (read (room + 1)) inner F := by
  have hfield : ReadsThrough (read (room + 1)) ((shape room (readCells room)).read f) F :=
    FieldPlace.readsThrough (whole_shape (whole_read room).2) hF
  rw [hread] at hfield
  exact hfield.comp (.reading hinner set) id

theorem readsThrough_headerOverride (room : Nat) {L : Text → Text} (hL : ElementPlace L) :
    ∃ room', ReadsThrough (HeaderOverride.readAll room) (HeaderOverride.read room') L := by
  cases room with
  | zero => exact ⟨0, .of_not_reads fun h => readList_none_ne_ok (h [] stops_nil)⟩
  | succ room => exact ⟨room, hL.readsThrough (HeaderOverride.whole_read room)⟩

theorem readsThrough_cell (room : Nat) {L : Text → Text} (hL : ElementPlace L) :
    ∃ room', ReadsThrough (readCells room) (read room') L := by
  cases room with
  | zero => exact ⟨0, .of_not_reads fun h => readList_none_ne_ok (h [] stops_nil)⟩
  | succ room => exact ⟨room, hL.readsThrough (whole_read room).1⟩

/-- What is read from a payload depends on the place of a record in it through the record only. -/
theorem Place.readsThrough {k : RecordKind} {C : Text → Text} (hC : Place k C) (room : Nat) :
    ∃ room', ReadsThrough (read room) (k.read room') C := by
  induction hC generalizing room with
  | self => exact ⟨room, .refl⟩
  | displayFormat hF =>
    refine readsThrough_of_succ (fun room => ?_) room
    have hformat := DisplayFormat.whole_read room
    have hfield := readsThrough_field room hF (whole_optional hformat)
      (fun f => updateCell fun c => { c with displayFormat := f }) rfl
    exact ⟨room, hfield.comp (.optional hformat) id⟩
  | headerOverride hF hL =>
    refine readsThrough_of_succ (fun room => ?_) room
    have hall := HeaderOverride.whole_readAll room
    have hfield := readsThrough_field room hF (whole_optional hall)
      (fun hs => updateCell fun c => { c with headerOverrides := hs }) rfl
    obtain ⟨room', hheader⟩ := readsThrough_headerOverride room hL
    exact ⟨room', (hfield.comp (.optional hall) id).comp hheader hL.isContainer⟩
  | cell hF hL hC ih =>
    refine readsThrough_of_succ (fun room => ?_) room
    have hfield := readsThrough_field room hF (whole_read room).2 (fun cells p => { p with cells }) rfl
    obtain ⟨room', hcell⟩ := readsThrough_cell room hL
    obtain ⟨room'', hinner⟩ := ih room'
    exact ⟨room'', hfield.comp (hcell.comp hinner hC.isContainer) fun hv => hL.isContainer (hC.isContainer hv)⟩

/-! ## Texts of payloads -/

theorem ofJson_append_iff {b w a : Text} (hb : IsBlanks b) (ha : IsBlanks a) (hw : IsValue w) {p : Payload} :
    ofJson (b ++ (w ++ a)) = .ok p ↔ Reads (read maxOpen) w p := by
  have hstops : Stops a := List.append_nil a ▸ stops_nil.blanks ha
  have hend : skipBlanks a = [] := by
    rw [← List.append_nil a, skipBlanks_append ha]
    rfl
  constructor
  · intro h
    obtain ⟨⟨q, t⟩, hq, hafter⟩ := bind_eq_ok_iff.1 h
    obtain ⟨rfl, hreads⟩ := ((whole_read maxOpen).1.read_append_iff hw hb hstops).1 hq
    dsimp only at hafter
    rw [hend] at hafter
    cases hafter
    exact hreads
  · intro hreads
    refine bind_eq_ok_iff.2 ⟨_, ((whole_read maxOpen).1.read_append_iff hw hb hstops).2 ⟨rfl, hreads⟩, ?_⟩
    dsimp only
    rw [hend]

/-- Two texts of payloads that are the same but for an object in them that is decoded, and for the members of
this object related in some way, which may depend on the names that are known there. -/
def DifferIn (R : List Text → List Member → List Member → Prop) (t t' : Text) : Prop :=
  ∃ (k : RecordKind) (C : Text → Text) (w w' b a : Text) (ms ms' : List Member), Place k C ∧ IsObject w ms ∧
    IsObject w' ms' ∧ R k.names ms ms' ∧ IsBlanks b ∧ IsBlanks a ∧ t = b ++ (C w ++ a) ∧ t' = b ++ (C w' ++ a)

theorem ofJson_of_differIn_rearranged {t t' : Text} {p : Payload} (hdiffer : DifferIn Rearranged t t')
    (h : ofJson t = .ok p) : ofJson t' = .ok p := by
  obtain ⟨k, C, w, w', b, a, ms, ms', hC, hw, hw', hms, hb, ha, rfl, rfl⟩ := hdiffer
  have hcontainer : IsContainer w := .inl ⟨ms, hw⟩
  have hcontainer' : IsContainer w' := .inl ⟨ms', hw'⟩
  rw [ofJson_append_iff hb ha (hC.isContainer hcontainer).isValue] at h
  rw [ofJson_append_iff hb ha (hC.isContainer hcontainer').isValue]
  obtain ⟨room, hthrough⟩ := hC.readsThrough maxOpen
  obtain ⟨x, hx, hother⟩ := hthrough _ _ hcontainer h
  exact hother w' hcontainer' (RecordKind.reads_of_rearranged hw hw' hms hx)

theorem ofJson_of_differIn_repeated {t t' : Text} (hdiffer : DifferIn Repeated t t') (p : Payload) :
    ofJson t' ≠ .ok p := by
  obtain ⟨k, C, w, w', b, a, ms, ms', hC, hw, hw', hms, hb, ha, rfl, rfl⟩ := hdiffer
  have hcontainer' : IsContainer w' := .inl ⟨ms', hw'⟩
  rw [ne_eq, ofJson_append_iff hb ha (hC.isContainer hcontainer').isValue]
  intro h
  obtain ⟨room, hthrough⟩ := hC.readsThrough maxOpen
  obtain ⟨x, hx, -⟩ := hthrough _ _ hcontainer' h
  exact RecordKind.not_reads_of_repeated hw' hms hx

/-- A text that is read as a payload is still read as this payload if the members of decoded objects in it
are put into another order, and if members under unknown names are put among them; but it is not read any
more if a known member of one of these objects is repeated. -/
theorem ofJson_of_rearranged {t : Text} {p : Payload} (h : ofJson t = .ok p) :
    (∀ t', Relation.ReflTransGen (DifferIn Rearranged) t t' → ofJson t' = .ok p) ∧
      ∀ t', DifferIn Repeated t t' → ∃ f, ofJson t' = .error f := by
  constructor
  · intro t' hsteps
    induction hsteps with
    | refl => exact h
    | tail _ hstep ih => exact ofJson_of_differIn_rearranged hstep ih
  · intro t' hdiffer
    have hno := ofJson_of_differIn_repeated hdiffer
    cases hread : ofJson t' with
    | error f => exact ⟨f, rfl⟩
    | ok q => exact absurd hread (hno q)

/-- A cell with its members in another order and one more among them, and with one of them repeated. -/
theorem ofJson_of_rearranged_cell :
    let t := "\x7b\"fArray\":[\x7b\"fStr\":\"a\",\"fType\":\"TEXT\"\x7d]\x7d".toList
    let t' := "\x7b\"fArray\":[\x7b\"x\":[null],\"fType\":\"TEXT\",\"fStr\":\"a\"\x7d]\x7d".toList
    let t'' := "\x7b\"fArray\":[\x7b\"fStr\":\"a\",\"fType\":\"TEXT\",\"fStr\":null\x7d]\x7d".toList
    let p : Payload := ⟨{}, [⟨{ kind := .text, text := some ['a'] }, []⟩]⟩
    ofJson t = .ok p ∧ ofJson t' = .ok p ∧ ∃ f, ofJson t'' = .error f := by
  intro t t' t'' p
  let names := ["fArray".toList, "fStr".toList, "fType".toList, "x".toList]
  have hspells : ∀ name ∈ names, Spells name name := fun name hname => spells_self
    ((by simp [names] : ∀ name ∈ names, ∀ c ∈ name, c ≠ '"' ∧ c ≠ '\\' ∧ ¬ c.toNat < 0x20) name hname)
  have hstring : ∀ u ∈ ["a".toList, "TEXT".toList], IsValue ('"' :: (u ++ ['"'])) := fun u hu => .string
    (spells_self ((by simp : ∀ u ∈ ["a".toList, "TEXT".toList], ∀ c ∈ u, c ≠ '"' ∧ c ≠ '\\' ∧ ¬ c.toNat < 0x20)
      u hu)).isChars
  have hnull : IsValue "null".toList := .word List.mem_cons_self
  let compact (name value : Text) : Member := ⟨[], name, [], ⟨[], value, []⟩⟩
  have hframed (name value : Text) (hname : name ∈ names) : (compact name value).Framed :=
    ⟨isBlanks_nil, (hspells name hname).isChars, isBlanks_nil, isBlanks_nil, isBlanks_nil⟩
  let text := compact "fStr".toList "\"a\"".toList
  let kind := compact "fType".toList "\"TEXT\"".toList
  let other := compact "x".toList "[null]".toList
  let absent := compact "fStr".toList "null".toList
  have hitem : ∀ i ∈ [(⟨[], "null".toList, []⟩ : Item)], i.Framed :=
    List.forall_mem_singleton.2 ⟨isBlanks_nil, isBlanks_nil⟩
  have hlist : IsValue "[null]".toList := .list hitem (List.forall_mem_singleton.2 hnull) isBlanks_nil
  have htext : text.Proper := ⟨hframed _ _ (by decide), hstring "a".toList (by decide)⟩
  have hkind : kind.Proper := ⟨hframed _ _ (by decide), hstring "TEXT".toList (by decide)⟩
  have hother : other.Proper := ⟨hframed _ _ (by decide), hlist⟩
  have habsent : absent.Proper := ⟨hframed _ _ (by decide), hnull⟩
  have hnone : ∀ m ∈ ([] : List Member), m.Proper := List.forall_mem_nil _
  have hnoItem : ∀ i ∈ ([] : List Item), i.Proper := List.forall_mem_nil _
  have hlookup : fields.lookup "fArray".toList = some .cells := rfl
  have hF := FieldPlace.object isBlanks_nil hnone hnone (hframed "fArray".toList [] (by decide))
    (hspells "fArray".toList (by decide)) hlookup
  have hL := ElementPlace.mk (i := ⟨[], [], []⟩) isBlanks_nil hnoItem hnoItem ⟨isBlanks_nil, isBlanks_nil⟩
  have hC := Place.cell hF hL .self
  have ht : ofJson t = .ok p := by decide +kernel
  have hobject (ms : List Member) (hms : ∀ m ∈ ms, m.Proper) : IsObject (objectText ms []) ms :=
    ⟨[], isBlanks_nil, hms, rfl⟩
  have hw := hobject [text, kind] (by simpa only [List.forall_mem_cons] using ⟨htext, hkind, hnone⟩)
  have hw' := hobject [other, kind, text] (by simpa only [List.forall_mem_cons] using ⟨hother, hkind, htext, hnone⟩)
  have hw'' := hobject [text, kind, absent]
    (by simpa only [List.forall_mem_cons] using ⟨htext, hkind, habsent, hnone⟩)
  have hrearranged : Rearranged RecordKind.payload.names [text, kind] [other, kind, text] := by
    refine ⟨[text, kind], [other], ?_, ?_, ?_⟩
    · exact .cons ⟨_, hspells _ (by decide), hspells _ (by decide), rfl⟩
        (.cons ⟨_, hspells _ (by decide), hspells _ (by decide), rfl⟩ .nil)
    · exact List.forall_mem_singleton.2 ⟨_, hspells _ (by decide), by decide⟩
    · exact List.reverse_perm [text, kind, other]
  have hrepeated : Repeated RecordKind.payload.names [text, kind] [text, kind, absent] :=
    ⟨text, List.mem_cons_self, absent, "fStr".toList, [text, kind], [], by decide, hspells _ (by decide),
      hspells _ (by decide), rfl, rfl⟩
  obtain ⟨hsame, hno⟩ := ofJson_of_rearranged ht
  refine ⟨ht, hsame t' (.single ?_), hno t'' ?_⟩
  · refine ⟨_, _, _, _, [], [], _, _, hC, hw, hw', hrearranged, isBlanks_nil, isBlanks_nil, ?_, ?_⟩ <;> decide +kernel
  · refine ⟨_, _, _, _, [], [], _, _, hC, hw, hw'', hrepeated, isBlanks_nil, isBlanks_nil, ?_, ?_⟩ <;> decide +kernel

end Payload

end CellFormat
