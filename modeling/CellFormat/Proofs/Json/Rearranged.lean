import CellFormat.Proofs.Json.Members
/-!
# Records from rearranged members

The order of the members of an object does not matter, nor do members under
names that the record does not have (`Fills.of_rearranged`). A known name that
comes twice does: then there is no record (`not_fills_of_repeated`).
-/

namespace CellFormat.Json

variable {φ α : Type} {shape : RecordShape φ α} {ms : List Member} {r : α}

/-! ## Members in another order, and under other names -/

/-- The readers of a record take whole values, and those of different fields do not get in each other's way. -/
structure Lawful (shape : RecordShape φ α) : Prop where
  whole : ∀ f, Whole (shape.read f)
  commute : ∀ {f g : φ} {v w : Text} {c c' : α → α}, f ≠ g → Reads (shape.read f) v c → Reads (shape.read g) w c' →
    ∀ r, c (c' r) = c' (c r)

/-- The same name, however it is spelled, and the same value, whatever blanks stand around it. -/
def SameMember (m m' : Member) : Prop :=
  ∃ name, Spells m.key name ∧ Spells m'.key name ∧ m'.item.value = m.item.value

/-- The members in any order, and others among them under names that are not in the list. -/
def Rearranged (names : List Text) (ms ms' : List Member) : Prop :=
  ∃ kept others, List.Forall₂ SameMember ms kept ∧ (∀ m ∈ others, ∃ name, Spells m.key name ∧ name ∉ names) ∧
    ms'.Perm (kept ++ others)

/-- A member under a name of the list is repeated, with any value, anywhere among the members. -/
def Repeated (names : List Text) (ms ms' : List Member) : Prop :=
  ∃ m ∈ ms, ∃ m' name before after, name ∈ names ∧ Spells m.key name ∧ Spells m'.key name ∧ ms = before ++ after ∧
    ms' = before ++ m' :: after

theorem lookup_eq_none {fields : List (Text × φ)} {name : Text} (h : name ∉ fields.map (·.1)) :
    fields.lookup name = none := by
  refine List.lookup_eq_none_iff.2 fun p hp => ?_
  have hne : name ≠ p.1 := fun heq => h (heq ▸ List.mem_map_of_mem hp)
  simpa using hne

theorem exists_lookup {fields : List (Text × φ)} {name : Text} (h : name ∈ fields.map (·.1)) :
    ∃ f, fields.lookup name = some f := by
  obtain ⟨p, hp, rfl⟩ := List.mem_map.1 h
  refine Option.ne_none_iff_exists'.1 fun hnone => ?_
  simpa using List.lookup_eq_none_iff.1 hnone p hp

theorem Spells.unique {key name name' : Text} (h : Spells key name) (h' : Spells key name') : name = name' := by
  have hread := readChars_append h []
  rw [readChars_append h'] at hread
  cases hread
  rfl

namespace Fills

variable {seen seen' : List φ} {r' : α} {ms' : List Member}

theorem of_subset (h : Fills shape seen r ms r') (hsub : ∀ f ∈ seen', f ∈ seen) : Fills shape seen' r ms r' := by
  induction h generalizing seen' with
  | done => exact .done _ _
  | pass hkey hname _ ih => exact .pass hkey hname (ih hsub)
  | put hkey hname hnew hvalue _ ih =>
    exact .put hkey hname (fun hmem => hnew (hsub _ hmem)) hvalue (ih (List.cons_subset_cons _ hsub))

theorem perm (hshape : Lawful shape) (hperm : ms.Perm ms') (h : Fills shape seen r ms r') :
    Fills shape seen r ms' r' := by
  induction hperm generalizing seen r with
  | nil => exact h
  | cons m _ ih =>
    cases h with
    | pass hkey hname h => exact .pass hkey hname (ih h)
    | put hkey hname hnew hvalue h => exact .put hkey hname hnew hvalue (ih h)
  | swap m n ms =>
    cases h with
    | pass hkey hname h =>
      cases h with
      | pass hkey' hname' h => exact .pass hkey' hname' (.pass hkey hname h)
      | put hkey' hname' hnew' hvalue' h => exact .put hkey' hname' hnew' hvalue' (.pass hkey hname h)
    | @put _ _ _ _ _ _ f c hkey hname hnew hvalue h =>
      cases h with
      | pass hkey' hname' h => exact .pass hkey' hname' (.put hkey hname hnew hvalue h)
      | @put _ _ _ _ _ _ g c' hkey' hname' hnew' hvalue' h =>
        rw [List.mem_cons, not_or] at hnew'
        have hfg : f ∉ g :: seen := by
          rw [List.mem_cons, not_or]
          exact ⟨Ne.symm hnew'.1, hnew⟩
        have hswap : ∀ k ∈ f :: g :: seen, k ∈ g :: f :: seen := fun k hk => (List.Perm.swap g f seen).mem_iff.1 hk
        rw [hshape.commute hnew'.1 hvalue' hvalue] at h
        exact .put hkey' hname' hnew'.2 hvalue' (.put hkey hname hfg hvalue (h.of_subset hswap))
  | trans _ _ ih ih' => exact ih' (ih h)

theorem append_unknown {others : List Member} (h : Fills shape seen r ms r')
    (hothers : ∀ m ∈ others, ∃ name, Spells m.key name ∧ name ∉ shape.fields.map (·.1)) :
    Fills shape seen r (ms ++ others) r' := by
  induction h with
  | done seen r =>
    rw [List.nil_append]
    induction others with
    | nil => exact .done _ _
    | cons m others ih =>
      obtain ⟨⟨name, hkey, hname⟩, hothers⟩ := List.forall_mem_cons.1 hothers
      exact .pass hkey (lookup_eq_none hname) (ih hothers)
  | pass hkey hname _ ih => exact .pass hkey hname ih
  | put hkey hname hnew hvalue _ ih => exact .put hkey hname hnew hvalue ih

theorem of_sameMember (h : Fills shape seen r ms r') (hsame : List.Forall₂ SameMember ms ms') :
    Fills shape seen r ms' r' := by
  induction h generalizing ms' with
  | done =>
    cases hsame
    exact .done _ _
  | pass hkey hname _ ih =>
    cases hsame with
    | cons hm hms =>
      obtain ⟨name, hspells, hspells', -⟩ := hm
      cases hkey.unique hspells
      exact .pass hspells' hname (ih hms)
  | put hkey hname hnew hvalue _ ih =>
    cases hsame with
    | cons hm hms =>
      obtain ⟨name, hspells, hspells', hsame⟩ := hm
      cases hkey.unique hspells
      exact .put hspells' hname hnew (hsame ▸ hvalue) (ih hms)

/-- Neither the order of the members nor members under other names matter. -/
theorem of_rearranged (hshape : Lawful shape) (h : Fills shape seen r ms r')
    (hms : Rearranged (shape.fields.map (·.1)) ms ms') : Fills shape seen r ms' r' := by
  obtain ⟨kept, others, hkept, hothers, hperm⟩ := hms
  exact ((h.of_sameMember hkept).append_unknown hothers).perm hshape hperm.symm

/-- A field that has come already does not come again. -/
theorem not_mem_seen (h : Fills shape seen r ms r') {m : Member} (hm : m ∈ ms) {name : Text}
    (hkey : Spells m.key name) {f : φ} (hname : shape.fields.lookup name = some f) : f ∉ seen := by
  induction h with
  | done => cases hm
  | pass hkey' hname' _ ih =>
    rcases List.mem_cons.1 hm with rfl | hm
    · rw [hkey.unique hkey', hname'] at hname
      cases hname
    · exact ih hm
  | put hkey' hname' hnew _ _ ih =>
    rcases List.mem_cons.1 hm with rfl | hm
    · rw [hkey.unique hkey', hname'] at hname
      cases hname
      exact hnew
    · exact fun hmem => ih hm (List.mem_cons_of_mem _ hmem)

end Fills

/-- With a known member repeated, nothing is read. -/
theorem not_fills_of_repeated (hshape : Lawful shape) {seen : List φ} {r' : α} {ms' : List Member}
    (hms : Repeated (shape.fields.map (·.1)) ms ms') : ¬ Fills shape seen r ms' r' := by
  obtain ⟨m, hm, m', name, before, after, hname, hkey, hkey', rfl, rfl⟩ := hms
  obtain ⟨f, hf⟩ := exists_lookup hname
  intro h
  -- The order does not matter, so let the repeated member come first.
  cases h.perm hshape List.perm_middle with
  | pass hkey'' hnone _ =>
    rw [← hkey'.unique hkey'', hf] at hnone
    cases hnone
  | put hkey'' hsome _ _ h =>
    rw [← hkey'.unique hkey'', hf] at hsome
    cases hsome
    exact h.not_mem_seen hm hkey hf List.mem_cons_self

end CellFormat.Json
