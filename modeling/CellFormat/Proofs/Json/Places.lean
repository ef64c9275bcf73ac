import CellFormat.Proofs.Json.Rearranged
/-!
# Values in their places

A text with a hole is a function of what stands in the hole. What a reader makes
of such a text depends on the hole only through what is read in it
(`ReadsThrough`): that is so for the place of an element in a list and for the
place of a field in a record, and one place may be inside another.
-/

namespace CellFormat.Json

variable {α β γ φ : Type} {F G : Text → Text}

/-- The text is an object or a list. -/
def IsContainer (w : Text) : Prop := (∃ ms, IsObject w ms) ∨ ∃ items, IsList w items

theorem IsContainer.isValue {w : Text} (h : IsContainer w) : IsValue w := by
  rcases h with ⟨ms, h⟩ | ⟨items, h⟩
  · exact h.isValue
  · exact h.isValue

theorem IsContainer.head_ne {w : Text} (h : IsContainer w) : w.head? ≠ some 'n' := by
  rcases h with ⟨ms, closing, -, -, rfl⟩ | ⟨items, closing, -, -, rfl⟩ <;> rintro ⟨⟩

/-- Where `outer` reads the text around a container, it reads it as whatever `inner` reads the container
as, so another one that is read as the same may take its place. -/
def ReadsThrough (outer : Text → Except Failure (α × Text)) (inner : Text → Except Failure (β × Text))
    (F : Text → Text) : Prop :=
  ∀ (v : Text) (r : α), IsContainer v → Reads outer (F v) r →
    ∃ a, Reads inner v a ∧ ∀ v', IsContainer v' → Reads inner v' a → Reads outer (F v') r

namespace ReadsThrough

variable {outer : Text → Except Failure (α × Text)} {mid : Text → Except Failure (β × Text)}
  {inner : Text → Except Failure (γ × Text)}

theorem refl : ReadsThrough outer outer id := fun _ _ _ h => ⟨_, h, fun _ _ h' => h'⟩

theorem comp (hF : ReadsThrough outer mid F) (hG : ReadsThrough mid inner G)
    (hcontainer : ∀ {v}, IsContainer v → IsContainer (G v)) : ReadsThrough outer inner (F ∘ G) := by
  intro v r hv h
  obtain ⟨b, hb, hother⟩ := hF _ _ (hcontainer hv) h
  obtain ⟨c, hc, hother'⟩ := hG _ _ hv hb
  exact ⟨c, hc, fun v' hv' h' => hother _ (hcontainer hv') (hother' v' hv' h')⟩

/-- A place around which nothing is read. -/
theorem of_not_reads (h : ∀ {v r}, ¬ Reads outer v r) : ReadsThrough outer inner F :=
  fun _ _ _ hreads => absurd hreads h

theorem optional (hinner : Whole inner) : ReadsThrough (readOptional inner) inner id := by
  intro v r hv h
  obtain ⟨a, rfl, ha⟩ := (reads_optional_iff hinner hv.isValue hv.head_ne).1 h
  exact ⟨a, ha, fun v' hv' h' => (reads_optional_iff hinner hv'.isValue hv'.head_ne).2 ⟨a, rfl, h'⟩⟩

end ReadsThrough

/-! ## Places in lists -/

/-- The text around an element of a list. -/
inductive ElementPlace : (Text → Text) → Prop
  | mk {before after : List Item} {i : Item} {closing : Text} (hclosing : IsBlanks closing)
      (hbefore : ∀ j ∈ before, j.Proper) (hafter : ∀ j ∈ after, j.Proper) (hi : i.Framed) :
      ElementPlace fun v => listText (before ++ { i with value := v } :: after) closing

theorem isList_of_value {before after : List Item} {i : Item} {closing v : Text} (hclosing : IsBlanks closing)
    (hbefore : ∀ j ∈ before, j.Proper) (hafter : ∀ j ∈ after, j.Proper) (hi : i.Framed) (hv : IsValue v) :
    IsList (listText (before ++ { i with value := v } :: after) closing)
      (before ++ { i with value := v } :: after) := by
  have hvalue : ({ i with value := v } : Item).Proper := ⟨⟨hi.before, hi.after⟩, hv⟩
  exact ⟨closing, hclosing, List.forall_mem_append.2 ⟨hbefore, List.forall_mem_cons.2 ⟨hvalue, hafter⟩⟩, rfl⟩

theorem ElementPlace.isContainer (hF : ElementPlace F) {v : Text} (hv : IsContainer v) : IsContainer (F v) := by
  obtain ⟨hclosing, hbefore, hafter, hi⟩ := hF
  exact .inr ⟨_, isList_of_value hclosing hbefore hafter hi hv.isValue⟩

theorem forall₂_of_element {R : Item → α → Prop} {before after : List Item} {i : Item} {as : List α}
    (h : List.Forall₂ R (before ++ i :: after) as) :
    ∃ a, R i a ∧ ∀ i', R i' a → List.Forall₂ R (before ++ i' :: after) as := by
  induction before generalizing as with
  | nil =>
    cases h with
    | cons ha has => exact ⟨_, ha, fun i' ha' => .cons ha' has⟩
  | cons j before ih =>
    cases h with
    | cons hb has =>
      obtain ⟨a, ha, hother⟩ := ih has
      exact ⟨a, ha, fun i' ha' => .cons hb (hother i' ha')⟩

theorem ElementPlace.readsThrough {read : Text → Except Failure (α × Text)} (hread : Whole read)
    (hF : ElementPlace F) : ReadsThrough (readList (some read)) read F := by
  intro v as hv h
  obtain ⟨hclosing, hbefore, hafter, hi⟩ := hF
  have hlist {v : Text} (hv : IsContainer v) := isList_of_value hclosing hbefore hafter hi hv.isValue
  rw [reads_list_iff hread (hlist hv)] at h
  obtain ⟨a, ha, hother⟩ := forall₂_of_element h
  exact ⟨a, ha, fun v' hv' h' => (reads_list_iff hread (hlist hv')).2 (hother _ h')⟩

/-! ## Places in records -/

section
variable {shape : RecordShape φ α} {r r' : α}

/-- What the members make of a record depends on the value of one of them through what is read from it. -/
theorem Fills.of_value {seen : List φ} {before after : List Member} {m : Member} {name : Text} {f : φ}
    (h : Fills shape seen r (before ++ m :: after) r') (hkey : Spells m.key name)
    (hname : shape.fields.lookup name = some f) :
    ∃ change, Reads (shape.read f) m.item.value change ∧ ∀ m' : Member, Spells m'.key name →
      Reads (shape.read f) m'.item.value change → Fills shape seen r (before ++ m' :: after) r' := by
  induction before generalizing seen r with
  | nil =>
    cases h with
    | pass hkey' hname' h =>
      rw [← hkey.unique hkey', hname] at hname'
      cases hname'
    | put hkey' hname' hnew hvalue h =>
      rw [← hkey.unique hkey', hname] at hname'
      cases hname'
      exact ⟨_, hvalue, fun m' hspells hreads => .put hspells hname hnew hreads h⟩
  | cons n before ih =>
    cases h with
    | pass hkey' hname' h =>
      obtain ⟨change, hvalue, hother⟩ := ih h
      exact ⟨change, hvalue, fun m' hspells hreads => .pass hkey' hname' (hother m' hspells hreads)⟩
    | put hkey' hname' hnew hvalue' h =>
      obtain ⟨change, hvalue, hother⟩ := ih h
      exact ⟨change, hvalue, fun m' hspells hreads => .put hkey' hname' hnew hvalue' (hother m' hspells hreads)⟩

theorem FillsInOrder.of_value {fields : List φ} {before after : List Item} {i : Item}
    (h : FillsInOrder shape fields r (before ++ i :: after) r') :
    ∃ f change, fields[before.length]? = some f ∧ Reads (shape.read f) i.value change ∧ ∀ i' : Item,
      Reads (shape.read f) i'.value change → FillsInOrder shape fields r (before ++ i' :: after) r' := by
  induction before generalizing fields r with
  | nil =>
    cases h with
    | put hvalue h => exact ⟨_, _, rfl, hvalue, fun i' hreads => .put hreads h⟩
  | cons j before ih =>
    cases h with
    | put hvalue' h =>
      obtain ⟨f, change, hf, hvalue, hother⟩ := ih h
      exact ⟨f, change, hf, hvalue, fun i' hreads => .put hvalue' (hother i' hreads)⟩

end

/-- The text around the value of a field, in an object or in the list form of a record. -/
inductive FieldPlace (fields : List (Text × φ)) (f : φ) : (Text → Text) → Prop
  | object {before after : List Member} {m : Member} {name closing : Text} (hclosing : IsBlanks closing)
      (hbefore : ∀ n ∈ before, n.Proper) (hafter : ∀ n ∈ after, n.Proper) (hm : m.Framed)
      (hkey : Spells m.key name) (hname : fields.lookup name = some f) :
      FieldPlace fields f fun v =>
        objectText (before ++ { m with item := { m.item with value := v } } :: after) closing
  | list {before after : List Item} {i : Item} {closing : Text} (hclosing : IsBlanks closing)
      (hbefore : ∀ j ∈ before, j.Proper) (hafter : ∀ j ∈ after, j.Proper) (hi : i.Framed)
      (hf : (fields.map (·.2))[before.length]? = some f) :
      FieldPlace fields f fun v => listText (before ++ { i with value := v } :: after) closing

theorem isObject_of_value {before after : List Member} {m : Member} {closing v : Text} (hclosing : IsBlanks closing)
    (hbefore : ∀ n ∈ before, n.Proper) (hafter : ∀ n ∈ after, n.Proper) (hm : m.Framed) (hv : IsValue v) :
    IsObject (objectText (before ++ { m with item := { m.item with value := v } } :: after) closing)
      (before ++ { m with item := { m.item with value := v } } :: after) := by
  have hvalue : ({ m with item := { m.item with value := v } } : Member).Proper :=
    ⟨⟨hm.before, hm.key, hm.between, ⟨hm.item.before, hm.item.after⟩⟩, hv⟩
  exact ⟨closing, hclosing, List.forall_mem_append.2 ⟨hbefore, List.forall_mem_cons.2 ⟨hvalue, hafter⟩⟩, rfl⟩

theorem FieldPlace.isContainer {fields : List (Text × φ)} {f : φ} (hF : FieldPlace fields f F) {v : Text}
    (hv : IsContainer v) : IsContainer (F v) := by
  cases hF with
  | object hclosing hbefore hafter hm => exact .inl ⟨_, isObject_of_value hclosing hbefore hafter hm hv.isValue⟩
  | list hclosing hbefore hafter hi => exact .inr ⟨_, isList_of_value hclosing hbefore hafter hi hv.isValue⟩

theorem FieldPlace.readsThrough [DecidableEq φ] {shape : RecordShape φ α} {title : Text} {d : α}
    (hread : ∀ f, Whole (shape.read f)) {f : φ} (hF : FieldPlace shape.fields f F) :
    ReadsThrough (readRecord title d (some shape)) (shape.read f) F := by
  intro v r hv h
  cases hF with
  | object hclosing hbefore hafter hm hkey hname =>
    have hobject {v : Text} (hv : IsContainer v) := isObject_of_value hclosing hbefore hafter hm hv.isValue
    rw [reads_object_iff hread (hobject hv)] at h
    obtain ⟨change, hchange, hother⟩ := h.of_value hkey hname
    exact ⟨change, hchange, fun v' hv' h' => (reads_object_iff hread (hobject hv')).2 (hother _ hkey h')⟩
  | list hclosing hbefore hafter hi hf =>
    have hlist {v : Text} (hv : IsContainer v) := isList_of_value hclosing hbefore hafter hi hv.isValue
    rw [reads_inOrder_iff hread (hlist hv)] at h
    obtain ⟨g, change, hg, hchange, hother⟩ := h.of_value
    rw [hf] at hg
    cases hg
    exact ⟨change, hchange, fun v' hv' h' => (reads_inOrder_iff hread (hlist hv')).2 (hother _ h')⟩

end CellFormat.Json
