import CellFormat.Json.Records
import CellFormat.Proofs.Json.Values
/-!
# Lists and records are read back

The readers take one element or member after the other, so what they do to a
whole text follows from what they do to the next item of it. For a record,
`Puts` describes how members in the order of their fields fill it one by one;
`restores_record` says that the text of such members is read as the filled
record.
-/

namespace CellFormat.Json

/-! ## Items and commas -/

/-- Items with commas between them, and one in front of the first if others came before. -/
def separated : (first : Bool) → List Text → Text
  | _, [] => []
  | first, w :: ws => (if first then [] else [',']) ++ (w ++ separated false ws)

theorem intercalate_eq_separated (ws : List Text) : List.intercalate [','] ws = separated true ws := by
  have hmore : ∀ ws : List Text, separated false ws = (ws.map (',' :: ·)).flatten := by
    intro ws
    induction ws with
    | nil => rfl
    | cons w ws ih => simp [separated, ih]
  cases ws with
  | nil => rfl
  | cons w ws =>
    rw [separated, hmore]
    simp only [List.intercalate, if_pos, List.nil_append]
    induction ws generalizing w with
    | nil => simp
    | cons v ws ih => simp [ih]

theorem length_le_separated {ws : List Text} (h : ∀ w ∈ ws, w ≠ []) (first : Bool) :
    ws.length ≤ (separated first ws).length := by
  induction ws generalizing first with
  | nil => exact Nat.le_refl _
  | cons w ws ih =>
    have hw := List.length_pos_iff.2 (h w List.mem_cons_self)
    have hws := ih (fun v hv => h v (List.mem_cons_of_mem w hv)) false
    simp only [separated, List.length_append, List.length_cons]
    omega

/-- Behind an item comes a comma or the end of the container. -/
theorem ends_separated {close : Char} (hclose : close = ']' ∨ close = '}') (ws : List Text) (rest : Text) :
    Ends (separated false ws ++ close :: rest) := by
  intro c hc
  cases ws with
  | nil =>
    cases hc
    exact .inr hclose
  | cons w ws =>
    cases hc
    exact .inl rfl

/-! ## Lists -/

section
variable {α : Type} {read : Text → Except Failure (α × Text)} {write : α → Text}

theorem nextElement_item {w : Text} (h : StartsValue w) (first : Bool) (rest : Text) :
    nextElement first ((if first then [] else [',']) ++ (w ++ rest)) = .ok (.item (w ++ rest)) := by
  have hskip := h.skipBlanks rest
  obtain ⟨c, t, rfl, hc⟩ := h
  have hclose : c ≠ ']' := fun h => hc (by simp [h])
  rw [List.cons_append] at hskip ⊢
  cases first with
  | true => simp [nextElement, hskip]
  | false =>
    rw [if_neg Bool.false_ne_true, List.cons_append, List.nil_append, nextElement, skipBlanks_cons (by decide)]
    simp [hskip, hclose]

theorem readElements_separated {as : List α} (h : ∀ a ∈ as, Restores read (write a) a) {fuel : Nat}
    (hfuel : as.length < fuel) (first : Bool) (rest : Text) :
    readElements read fuel first (separated first (as.map write) ++ ']' :: rest) = .ok (as, rest) := by
  induction as generalizing fuel first with
  | nil =>
    obtain ⟨fuel, rfl⟩ := Nat.exists_eq_add_one_of_ne_zero (Nat.ne_of_gt hfuel)
    rfl
  | cons a as ih =>
    obtain ⟨ha, has⟩ := List.forall_mem_cons.1 h
    obtain ⟨fuel, rfl⟩ := Nat.exists_eq_add_one_of_ne_zero (Nat.ne_of_gt (Nat.zero_lt_of_lt hfuel))
    -- The comma behind an element counts to the next one, so it only has to end this one.
    have hitem := nextElement_item ha.starts first (separated false (as.map write) ++ ']' :: rest)
    have hread := ha.reads _ (ends_separated (.inl rfl) (as.map write) rest)
    have hmore := ih has (Nat.lt_of_succ_lt_succ hfuel) false
    rw [List.map_cons, separated, List.append_assoc, List.append_assoc, readElements, hitem]
    simp only [bind, Except.bind, hread, hmore]

theorem restores_list {as : List α} (h : ∀ a ∈ as, Restores read (write a) a) :
    Restores (readList (some read)) (writeList (as.map write)) as := by
  refine ⟨⟨'[', _, rfl, by decide⟩, fun rest _ => ?_⟩
  have hne : ∀ w ∈ as.map write, w ≠ [] := by
    intro w hw
    obtain ⟨a, ha, rfl⟩ := List.mem_map.1 hw
    exact (h a ha).starts.ne_nil
  have hlen := length_le_separated hne true
  have htext : writeList (as.map write) ++ rest = '[' :: (separated true (as.map write) ++ ']' :: rest) := by
    simp [writeList, intercalate_eq_separated]
  rw [List.length_map] at hlen
  rw [htext, readList, skipBlanks_cons (by decide)]
  refine readElements_separated h ?_ true rest
  rw [List.length_append]
  omega

end

/-! ## Records -/

section
variable {φ α : Type} {shape : RecordShape φ α}

/-- Members put one after the other into a record. They have some of the fields listed, in that
order. -/
inductive Puts (shape : RecordShape φ α) : α → List (Text × Text) → List φ → α → Prop
  | done (r : α) : Puts shape r [] [] r
  | skip {r r' : α} {ms : List (Text × Text)} {fs : List φ} (f : φ) (h : Puts shape r ms fs r') :
      Puts shape r ms (f :: fs) r'
  | put {r r' : α} {ms : List (Text × Text)} {fs : List φ} {name value : Text} {f : φ} {change : α → α}
      (hname : shape.fields.lookup name = some f) (hvalue : Restores (shape.read f) value change)
      (h : Puts shape (change r) ms fs r') : Puts shape r ((name, value) :: ms) (f :: fs) r'

theorem Puts.append {r r' r'' : α} {ms ms' : List (Text × Text)} {fs fs' : List φ} (h : Puts shape r ms fs r')
    (h' : Puts shape r' ms' fs' r'') : Puts shape r (ms ++ ms') (fs ++ fs') r'' := by
  induction h with
  | done => exact h'
  | skip f _ ih => exact .skip f (ih h')
  | put hname hvalue _ ih => exact .put hname hvalue (ih h')

/-- The text of a member. -/
def memberText (m : Text × Text) : Text := writeString m.1 ++ ':' :: m.2

theorem nextKey_item (first : Bool) (name value rest : Text) :
    nextKey first ((if first then [] else [',']) ++ (memberText (name, value) ++ rest)) =
      .ok (.item (name.flatMap writeChar ++ '"' :: ':' :: (value ++ rest))) := by
  have hquote (t : Text) : skipBlanks ('"' :: t) = '"' :: t := skipBlanks_cons (by decide) t
  rw [memberText, List.append_assoc, writeString_append, List.cons_append]
  cases first with
  | true => simp [nextKey, hquote, openKey]
  | false =>
    rw [if_neg Bool.false_ne_true, List.cons_append, List.nil_append, nextKey, skipBlanks_cons (by decide)]
    simp [hquote, openKey]

variable [DecidableEq φ]

/-- Reading goes member by member through the fields; those that have been seen are not among the
fields to come. -/
theorem readMembers_of_puts {r r' : α} {ms : List (Text × Text)} {fs seen : List φ} (h : Puts shape r ms fs r')
    (hnodup : fs.Nodup) (hseen : ∀ f ∈ fs, f ∉ seen) {fuel : Nat} (hfuel : ms.length < fuel) (first : Bool)
    (rest : Text) :
    readMembers shape fuel first seen r (separated first (ms.map memberText) ++ '}' :: rest) = .ok (r', rest) := by
  -- On the members: each is taken off the front of the text and put into the record.
  induction h generalizing seen fuel first with
  | done =>
    obtain ⟨fuel, rfl⟩ := Nat.exists_eq_add_one_of_ne_zero (Nat.ne_of_gt hfuel)
    rfl
  | skip f _ ih =>
    exact ih (List.nodup_cons.1 hnodup).2 (fun g hg => hseen g (List.mem_cons_of_mem f hg)) hfuel first
  | @put r r' ms fs name value f change hname hvalue _ ih =>
    obtain ⟨hnew, hnodup⟩ := List.nodup_cons.1 hnodup
    obtain ⟨fuel, rfl⟩ := Nat.exists_eq_add_one_of_ne_zero (Nat.ne_of_gt (Nat.zero_lt_of_lt hfuel))
    have hkey := nextKey_item first name value (separated false (ms.map memberText) ++ '}' :: rest)
    have hcolon : skipColon (':' :: (value ++ (separated false (ms.map memberText) ++ '}' :: rest))) =
        .ok (value ++ (separated false (ms.map memberText) ++ '}' :: rest)) := by
      rw [skipColon, skipBlanks_cons (by decide)]
      rfl
    have hread := hvalue.reads _ (ends_separated (.inr rfl) (ms.map memberText) rest)
    have hcome : ∀ g ∈ fs, g ∉ f :: seen := by
      intro g hg
      rw [List.mem_cons, not_or]
      exact ⟨fun heq => hnew (heq ▸ hg), hseen g (List.mem_cons_of_mem f hg)⟩
    have hmore := ih hnodup hcome (Nat.lt_of_succ_lt_succ hfuel) false
    rw [List.map_cons, separated, List.append_assoc, List.append_assoc, readMembers, hkey]
    simp only [bind, Except.bind, readChars_flatMap_writeChar, hname, if_neg (hseen f List.mem_cons_self), hcolon,
      hread, hmore]

theorem restores_record {r r' : α} {ms : List (Text × Text)} {fs : List φ} (h : Puts shape r ms fs r')
    (hnodup : fs.Nodup) (title : Text) : Restores (readRecord title r (some shape)) (writeObject ms) r' := by
  refine ⟨⟨'{', _, rfl, by decide⟩, fun rest _ => ?_⟩
  have hne : ∀ w ∈ ms.map memberText, w ≠ [] := by
    intro w hw
    obtain ⟨m, -, rfl⟩ := List.mem_map.1 hw
    exact List.cons_ne_nil _ _
  have hlen := length_le_separated hne true
  have htext : writeObject ms ++ rest = '{' :: (separated true (ms.map memberText) ++ '}' :: rest) := by
    rw [← intercalate_eq_separated]
    simp only [writeObject, List.append_assoc, List.cons_append, List.nil_append]
    rfl
  rw [List.length_map] at hlen
  rw [htext, readRecord, skipBlanks_cons (by decide)]
  refine readMembers_of_puts h hnodup (fun _ _ => List.not_mem_nil) ?_ true rest
  rw [List.length_append]
  omega

end

end CellFormat.Json
