import CellFormat.Payload.Reading
import CellFormat.Payload.Writing
import CellFormat.Proofs.Json.Records
import CellFormat.Proofs.Payload.Accepted
import CellFormat.Proofs.Payload.Nesting
/-!
# Payloads are read back

The text of a payload is read as the payload it was written from, if its numbers
are finite and its text is not nested deeper than may be read. Every payload
that has been read from any text is of this kind, so writing and reading it
again gives it back: `round_trip_through_json` says both.
-/

namespace CellFormat

open Json

/-! ## Members -/

section
variable {φ α β : Type} {shape : RecordShape φ α} {read : Text → Except Failure (β × Text)} {write : β → Text}
  {name : Text} {f : φ} {r : α}

theorem Json.Restores.reading {w : Text} {b : β} (h : Restores read w b) (set : β → α → α) :
    Restores (fun rest => CellFormat.reading set (read rest)) w (set b) := by
  refine ⟨h.starts, fun rest hrest => ?_⟩
  rw [CellFormat.reading, h.reads rest hrest]
  rfl

theorem Json.puts_value (set : β → α → α) (hname : shape.fields.lookup name = some f)
    (hread : shape.read f = fun rest => reading set (read rest)) {w : Text} {b : β} (hb : Restores read w b) :
    Puts shape r [(name, w)] [f] (set b r) := by
  have hvalue : Restores (shape.read f) w (set b) := by
    rw [hread]
    exact hb.reading set
  exact .put hname hvalue (.done _)

/-- A member that may be absent, for a record in which absence changes nothing. -/
theorem Json.puts_optional (set : Option β → α → α) (hname : shape.fields.lookup name = some f)
    (hread : shape.read f = fun rest => reading set (readOptional read rest)) {b? : Option β}
    (hb : ∀ b, b? = some b → Restores read (write b) b) (hnone : set none r = r) :
    Puts shape r (optionalMember name write b?) [f] (set b? r) := by
  cases b? with
  | none =>
    rw [hnone]
    exact .skip f (.done r)
  | some b => exact puts_value set hname hread (hb b rfl).optional

end

theorem CellKind.ofTag_tag (k : CellKind) : ofTag k.tag = k := by
  cases k <;> decide

theorem CellKind.restores (room : Nat) (k : CellKind) : Restores (CellKind.read room) (writeString k.tag) k := by
  refine ⟨startsValue_string _, fun rest _ => ?_⟩
  rw [writeString_append, CellKind.read, skipBlanks_cons (by decide)]
  simp only [readTag, readChars_flatMap_writeChar, bind, Except.bind, ofTag_tag]

theorem DisplayFormat.restores {room : Nat} (hroom : 0 < room) (f : DisplayFormat) :
    Restores (DisplayFormat.read room) f.write f := by
  obtain ⟨pattern, locale⟩ := f
  have hpattern : Puts shape ⟨[], none⟩ [("fPattern".toList, writeString pattern)] [.pattern] ⟨pattern, none⟩ :=
    puts_value (fun t (f : DisplayFormat) => { f with pattern := t }) rfl rfl (restores_string pattern)
  have hlocale : Puts shape ⟨pattern, none⟩ (optionalMember "fLocale".toList writeString locale) [.locale]
      ⟨pattern, locale⟩ :=
    puts_optional (fun t (f : DisplayFormat) => { f with locale := t }) rfl rfl (fun t _ => restores_string t) rfl
  rw [DisplayFormat.read, if_neg (Nat.ne_of_gt hroom)]
  exact restores_record (hpattern.append hlocale) (by decide) _

theorem HeaderOverride.restores {room : Nat} (hroom : 0 < room) (h : HeaderOverride) :
    Restores (HeaderOverride.read room) h.write h := by
  have hheader : Puts shape ⟨[]⟩ [("fHeader".toList, writeString h.header)] [.header] h :=
    puts_value (fun t (h : HeaderOverride) => { h with header := t }) rfl rfl (restores_string h.header)
  rw [HeaderOverride.read, if_neg (Nat.ne_of_gt hroom)]
  exact restores_record hheader (by decide) _

theorem HeaderOverride.restores_list {room : Nat} {hs : List HeaderOverride}
    (hroom : (if hs = [] then 1 else 2) ≤ room) :
    Restores (HeaderOverride.readAll room) (writeList (hs.map HeaderOverride.write)) hs := by
  obtain ⟨room, rfl⟩ : ∃ r, room = r + 1 := Nat.exists_eq_add_one.2 (by split at hroom <;> omega)
  refine Json.restores_list fun h hh => HeaderOverride.restores ?_ h
  rw [if_neg (List.ne_nil_of_mem hh)] at hroom
  omega

namespace Payload

/-- The members of a cell fill an empty payload with it. -/
theorem puts_members {room : Nat} {readCells : Text → Except Failure (List Payload × Text)} {cells : List Payload}
    {c : Cell} (hfinite : c.finiteNumber = true) (hdepth : c.depth ≤ room) :
    Puts (shape room readCells) ⟨{}, cells⟩ c.members
      [.kind, .text, .number, .uri, .displayFormat, .headerOverrides, .isHeader, .rows, .cols] ⟨c, cells⟩ := by
  obtain ⟨kind, text, number, uri, displayFormat, headerOverrides, isHeader, rows, cols⟩ := c
  obtain ⟨hformat, hheaders⟩ := Nat.max_le.1 hdepth
  let s := shape room readCells
  have hkind : Puts s ⟨{}, cells⟩ [("fType".toList, writeString kind.tag)] [.kind] ⟨{ kind }, cells⟩ :=
    puts_value (fun k => updateCell fun d => { d with kind := k }) rfl rfl (CellKind.restores room kind)
  have htext : Puts s ⟨{ kind }, cells⟩ (optionalMember "fStr".toList writeString text) [.text]
      ⟨{ kind, text }, cells⟩ :=
    puts_optional (fun t => updateCell fun d => { d with text := t }) rfl rfl (fun t _ => restores_string t) rfl
  have hnumber : Puts s ⟨{ kind, text }, cells⟩ (optionalMember "fNum".toList NumberLayout.interchange.write number)
      [.number] ⟨{ kind, text, number }, cells⟩ := by
    refine puts_optional (fun x => updateCell fun d => { d with number := x }) rfl rfl (fun x hx => ?_) rfl
    cases hx
    cases x with
    | nan => cases hfinite
    | infinite negative => cases hfinite
    | finite negative m => exact restores_float negative m
  have huri : Puts s ⟨{ kind, text, number }, cells⟩ (optionalMember "fUri".toList writeString uri) [.uri]
      ⟨{ kind, text, number, uri }, cells⟩ :=
    puts_optional (fun t => updateCell fun d => { d with uri := t }) rfl rfl (fun t _ => restores_string t) rfl
  have hdisplay : Puts s ⟨{ kind, text, number, uri }, cells⟩
      (optionalMember "fDisplayFormat".toList DisplayFormat.write displayFormat) [.displayFormat]
      ⟨{ kind, text, number, uri, displayFormat }, cells⟩ := by
    refine puts_optional (fun f => updateCell fun d => { d with displayFormat := f }) rfl rfl (fun f hf => ?_) rfl
    cases hf
    exact DisplayFormat.restores hformat f
  have hoverrides : Puts s ⟨{ kind, text, number, uri, displayFormat }, cells⟩
      (optionalMember "fHeaders".toList (fun hs => writeList (hs.map HeaderOverride.write)) headerOverrides)
      [.headerOverrides] ⟨{ kind, text, number, uri, displayFormat, headerOverrides }, cells⟩ := by
    refine puts_optional (fun hs => updateCell fun d => { d with headerOverrides := hs }) rfl rfl
      (fun hs hhs => ?_) rfl
    cases hhs
    exact HeaderOverride.restores_list hheaders
  have hheader : Puts s ⟨{ kind, text, number, uri, displayFormat, headerOverrides }, cells⟩
      [("fHeader".toList, writeBool isHeader)] [.isHeader]
      ⟨{ kind, text, number, uri, displayFormat, headerOverrides, isHeader }, cells⟩ :=
    puts_value (fun b => updateCell fun d => { d with isHeader := b }) rfl rfl (restores_bool isHeader)
  have hrows : Puts s ⟨{ kind, text, number, uri, displayFormat, headerOverrides, isHeader }, cells⟩
      [("fRows".toList, Text.ofNat rows.toNat)] [.rows]
      ⟨{ kind, text, number, uri, displayFormat, headerOverrides, isHeader, rows }, cells⟩ :=
    puts_value (fun n => updateCell fun d => { d with rows := n }) rfl rfl (restores_natural rows)
  have hcols : Puts s ⟨{ kind, text, number, uri, displayFormat, headerOverrides, isHeader, rows }, cells⟩
      [("fCols".toList, Text.ofNat cols.toNat)] [.cols]
      ⟨{ kind, text, number, uri, displayFormat, headerOverrides, isHeader, rows, cols }, cells⟩ :=
    puts_value (fun n => updateCell fun d => { d with cols := n }) rfl rfl (restores_natural cols)
  exact (((((hkind.append htext).append hnumber).append huri).append hdisplay).append hoverrides).append
    (hheader.append (hrows.append hcols))

theorem writeCells_eq_map (ps : List Payload) : writeCells ps = ps.map write := by
  induction ps with
  | nil => rfl
  | cons p ps ih => rw [writeCells, ih, List.map_cons]

/-- A payload is read back if its cells are. -/
theorem restores_of_cells {room : Nat} {c : Cell} {ps : List Payload} (hfinite : c.finiteNumber = true)
    (hdepth : c.depth ≤ room) (hcells : ps ≠ [] → Restores (readCells room) (writeList (ps.map write)) ps) :
    Restores (read (room + 1)) (write ⟨c, ps⟩) ⟨c, ps⟩ := by
  let s := shape room (readCells room)
  have hmembers : Puts s ⟨{}, []⟩ c.members _ ⟨c, []⟩ := puts_members hfinite hdepth
  have harray : Puts s ⟨c, []⟩
      (if ps.map write = [] then [] else [("fArray".toList, writeList (ps.map write))]) [.cells] ⟨c, ps⟩ := by
    cases ps with
    | nil => exact .skip _ (.done _)
    | cons p ps =>
      exact puts_value (fun cells (q : Payload) => { q with cells }) rfl rfl (hcells (List.cons_ne_nil p ps))
  rw [write, writeCells_eq_map]
  exact restores_record (hmembers.append harray) (by decide) title

/-- The payload and the list of its cells take a container each, so the rooms go down by turns. -/
theorem restores_write (room : Nat) :
    (∀ p, Fits room p → Restores (read room) p.write p) ∧
    ∀ ps : List Payload, ps ≠ [] → (∀ p ∈ ps, p.finiteNumbers = true ∧ p.depth + 1 ≤ room) →
      Restores (readCells room) (writeList (ps.map write)) ps := by
  induction room with
  | zero =>
    refine ⟨fun p hp => absurd hp not_fits_zero, fun ps hne hps => ?_⟩
    obtain ⟨p, hp⟩ := List.exists_mem_of_ne_nil ps hne
    exact absurd (hps p hp).2 (Nat.not_succ_le_zero _)
  | succ room ih =>
    constructor
    · rintro ⟨c, ps⟩ hp
      obtain ⟨⟨hfinite, hdepth⟩, hps⟩ := fits_succ_iff.1 hp
      exact restores_of_cells hfinite hdepth fun hne => ih.2 ps hne hps
    · intro ps _ hps
      refine Json.restores_list fun p hp => ih.1 p ?_
      obtain ⟨hfinite, hdepth⟩ := hps p hp
      exact ⟨hfinite, Nat.le_of_succ_le_succ hdepth⟩

theorem ofJson_write {p : Payload} (h : Fits maxOpen p) : ofJson p.write = .ok p := by
  have hread := ((restores_write maxOpen).1 p h).reads [] fun c hc => by cases hc
  rw [List.append_nil] at hread
  rw [ofJson, readDocument, hread]
  rfl

/-- A payload is read back from its text exactly if its numbers are finite and its text keeps to
the limit of open containers. Whatever is read from a text has both properties. -/
theorem round_trip_through_json :
    (∀ p : Payload, ofJson p.write = .ok p ↔ p.finiteNumbers = true ∧ nesting p.write ≤ maxOpen) ∧
    ∀ (t : Text) (p : Payload), ofJson t = .ok p →
      p.finiteNumbers = true ∧ nesting p.write ≤ maxOpen ∧ ofJson p.write = .ok p := by
  have hfits (p : Payload) : p.finiteNumbers = true ∧ nesting p.write ≤ maxOpen ↔ Fits maxOpen p := by
    rw [nesting_write, Fits]
  constructor
  · intro p
    rw [hfits]
    exact ⟨fits_of_ofJson, ofJson_write⟩
  · intro t p h
    rw [← and_assoc, hfits]
    exact ⟨fits_of_ofJson h, ofJson_write (fits_of_ofJson h)⟩

/-- A negative number of one unit, escapes of every sort and the largest size; and a text with its
members in a list, with a kind as an object and with a member under an unknown name. -/
theorem round_trip_through_json_escapes :
    let p := ofCells 0xFFFFFFFFFFFFFFFF 0
      [⟨{ text := some ['"', '\\', '\x01', '\n', '€'], uri := some [],
          number := some (.finite true ⟨1, by decide +kernel⟩),
          headerOverrides := some [{ header := "/".toList }] }, []⟩]
    let t := "[\x7b\"DATE\":null\x7d,\"\\u20AC\",25e-1,null,\x7b\"x\":[[]],\"fPattern\":\"\"\x7d]".toList
    let q : Payload :=
      ⟨{ kind := .date, text := some ['€'], number := some (.ofRatio false 5 2),
         displayFormat := some { pattern := [], locale := none } }, []⟩
    (p.finiteNumbers = true ∧ nesting p.write ≤ maxOpen ∧ ofJson p.write = .ok p) ∧
      ofJson t = .ok q ∧ ofJson q.write = .ok q := by
  intro p t q
  have hp : p.finiteNumbers = true ∧ nesting p.write ≤ maxOpen := ⟨rfl, by rw [nesting_write]; decide⟩
  have ht : ofJson t = .ok q := by decide +kernel
  exact ⟨⟨hp.1, hp.2, (round_trip_through_json.1 p).2 hp⟩, ht, (round_trip_through_json.2 t q ht).2.2⟩

end Payload

end CellFormat
