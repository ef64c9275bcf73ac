import CellFormat.Json.Records
import CellFormat.Proofs.Decimal.Value
/-!
# What an accepted text can hold

Whatever text a reader accepts, its value has the properties that its parts
have: the elements of a list those of the elements read one by one, and a record
those that no member takes away. Numbers are finite, since larger ones are
faults, and where no container may be opened, none is read.
-/

namespace CellFormat.Json

variable {α β φ : Type} {rest rest' : Text}

theorem bind_eq_ok_iff {x : Except Failure α} {f : α → Except Failure β} {b : β} :
    (x >>= f) = .ok b ↔ ∃ a, x = .ok a ∧ f a = .ok b := by
  cases x with
  | error e =>
    constructor
    · intro h
      cases h
    · rintro ⟨_, h, -⟩
      cases h
  | ok a =>
    constructor
    · exact fun h => ⟨a, rfl, h⟩
    · rintro ⟨_, ha, h⟩
      cases ha
      exact h

theorem failWrongType_ne_ok {expected : Text} {r : α} : failWrongType expected rest ≠ .ok r := by
  intro h
  unfold failWrongType at h
  split at h
  iterate 3
    · obtain ⟨_, -, h⟩ := bind_eq_ok_iff.1 h
      cases h
  · obtain ⟨_, -, h⟩ := bind_eq_ok_iff.1 h
    cases h
  · cases h
  · cases h
  · split at h
    · obtain ⟨_, -, h⟩ := bind_eq_ok_iff.1 h
      cases h
    · cases h
  · cases h

/-! ## Numbers -/

theorem isFinite_of_readNumber {n : Number} (h : readNumber rest = .ok (n, rest')) :
    n.toBinary64.isFinite = true := by
  unfold readNumber at h
  obtain ⟨⟨parts, t⟩, -, h⟩ := bind_eq_ok_iff.1 h
  dsimp only at h
  -- Integers have 64 bits, and of the other numbers those that round to infinity are faults.
  split at h
  · next n hn =>
    cases h
    unfold NumberParts.integer? at hn
    split at hn
    · cases hn
    · split at hn <;> split at hn <;> cases hn <;> exact Binary64.isFinite_ofRatio_one (by omega)
  · split at h
    · cases h
    · split at h
      · cases h
      · next hinf =>
        cases h
        have hnan : parts.toBinary64 ≠ .nan := by
          rw [NumberParts.toBinary64, Decimal.toBinary64_eq]
          exact Binary64.ofUnits_ne_nan _ _
        rw [Number.toBinary64]
        cases hx : parts.toBinary64 with
        | nan => exact absurd hx hnan
        | infinite negative => exact absurd hx (hinf negative)
        | finite negative m => rfl

theorem isFinite_of_readFloat {x : Binary64} (h : readFloat rest = .ok (x, rest')) : x.isFinite = true := by
  unfold readFloat at h
  split at h
  · cases h
  · split at h
    · obtain ⟨⟨n, t⟩, hn, h⟩ := bind_eq_ok_iff.1 h
      cases h
      exact isFinite_of_readNumber hn
    · exact absurd h failWrongType_ne_ok

/-! ## Containers -/

theorem readOptional_eq_some {read : Text → Except Failure (α × Text)} {a : α}
    (h : readOptional read rest = .ok (some a, rest')) : ∃ t t', read t = .ok (a, t') := by
  unfold readOptional at h
  split at h
  · obtain ⟨_, -, h⟩ := bind_eq_ok_iff.1 h
    cases h
  · obtain ⟨⟨b, t'⟩, hread, h⟩ := bind_eq_ok_iff.1 h
    cases h
    exact ⟨_, _, hread⟩

theorem readList_none_ne_ok {r : List α × Text} : readList none rest ≠ .ok r := by
  intro h
  unfold readList at h
  split at h
  · cases h
  · cases h
  · exact failWrongType_ne_ok h

theorem forall_of_readElements {read : Text → Except Failure (α × Text)} {P : α → Prop}
    (hP : ∀ t a t', read t = .ok (a, t') → P a) {fuel : Nat} {first : Bool} {as : List α}
    (h : readElements read fuel first rest = .ok (as, rest')) : ∀ a ∈ as, P a := by
  induction fuel generalizing first rest as with
  | zero => cases h
  | succ fuel ih =>
    rw [readElements] at h
    obtain ⟨next, -, h⟩ := bind_eq_ok_iff.1 h
    split at h
    · cases h
      exact List.forall_mem_nil P
    · obtain ⟨⟨a, t⟩, ha, h⟩ := bind_eq_ok_iff.1 h
      obtain ⟨⟨as', t'⟩, has, h⟩ := bind_eq_ok_iff.1 h
      cases h
      exact List.forall_mem_cons.2 ⟨hP _ _ _ ha, ih has⟩

theorem forall_of_readList {read : Text → Except Failure (α × Text)} {P : α → Prop}
    (hP : ∀ t a t', read t = .ok (a, t') → P a) {as : List α} (h : readList (some read) rest = .ok (as, rest')) :
    ∀ a ∈ as, P a := by
  unfold readList at h
  split at h
  · cases h
  · exact forall_of_readElements hP h
  · exact absurd h failWrongType_ne_ok

/-! ## Records -/

section
variable {shape : RecordShape φ α} {P : α → Prop}
  (hP : ∀ f t change t', shape.read f t = .ok (change, t') → ∀ r, P r → P (change r))
include hP

theorem readFields_preserves {fields : List φ} {first : Bool} {r r' : α} (hr : P r)
    (h : readFields shape fields first r rest = .ok (r', rest')) : P r' := by
  induction fields generalizing first r rest with
  | nil =>
    rw [readFields] at h
    obtain ⟨_, -, h⟩ := bind_eq_ok_iff.1 h
    cases h
    exact hr
  | cons f fields ih =>
    rw [readFields] at h
    obtain ⟨next, -, h⟩ := bind_eq_ok_iff.1 h
    split at h
    · cases h
      exact hr
    · obtain ⟨⟨change, t⟩, hread, h⟩ := bind_eq_ok_iff.1 h
      exact ih (hP _ _ _ _ hread _ hr) h

variable [DecidableEq φ]

theorem readMembers_preserves {fuel : Nat} {first : Bool} {seen : List φ} {r r' : α} (hr : P r)
    (h : readMembers shape fuel first seen r rest = .ok (r', rest')) : P r' := by
  induction fuel generalizing first seen r rest with
  | zero => cases h
  | succ fuel ih =>
    rw [readMembers] at h
    obtain ⟨next, -, h⟩ := bind_eq_ok_iff.1 h
    split at h
    · cases h
      exact hr
    · obtain ⟨⟨key, t⟩, -, h⟩ := bind_eq_ok_iff.1 h
      dsimp only at h
      split at h
      · -- A member that nobody knows is passed over.
        obtain ⟨_, -, h⟩ := bind_eq_ok_iff.1 h
        obtain ⟨_, -, h⟩ := bind_eq_ok_iff.1 h
        exact ih hr h
      · split at h
        · unfold failDuplicate at h
          split at h <;> cases h
        · obtain ⟨_, -, h⟩ := bind_eq_ok_iff.1 h
          obtain ⟨⟨change, t'⟩, hread, h⟩ := bind_eq_ok_iff.1 h
          exact ih (hP _ _ _ _ hread _ hr) h

/-- What the default has and no member takes away, a record that has been read has. -/
theorem readRecord_preserves {title : Text} {d r : α} (hd : P d)
    (h : readRecord title d (some shape) rest = .ok (r, rest')) : P r := by
  unfold readRecord at h
  split at h
  · cases h
  · exact readMembers_preserves hP hd h
  · exact readFields_preserves hP hd h
  · exact absurd h failWrongType_ne_ok

end

theorem readRecord_none_ne_ok [DecidableEq φ] {title : Text} {d : α} {r : α × Text} :
    readRecord title d (none : Option (RecordShape φ α)) rest ≠ .ok r := by
  intro h
  unfold readRecord at h
  split at h
  · cases h
  · cases h
  · cases h
  · exact failWrongType_ne_ok h

theorem room_pos_of_readRecord [DecidableEq φ] {title : Text} {d : α} {shape : RecordShape φ α} {room : Nat}
    {r : α × Text} (h : readRecord title d (if room = 0 then none else some shape) rest = .ok r) : 0 < room := by
  cases room with
  | zero => exact absurd h readRecord_none_ne_ok
  | succ room => exact Nat.succ_pos room

end CellFormat.Json
