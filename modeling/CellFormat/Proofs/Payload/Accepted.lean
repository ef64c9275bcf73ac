import CellFormat.Payload.Reading
import CellFormat.Proofs.Json.Accepted
import CellFormat.Proofs.Payload.Depth
/-!
# Payloads that have been read

Whatever text a payload is read from, it fits into the room it was read with:
its numbers are finite and no more containers are open in it than may be
(`fits_of_ofJson`). For that, no member may take this away from the payload it
is put into (`Cell.Fits` and its lemmas).
-/

namespace CellFormat

open Json

/-! ## Cells -/

/-- The members of the cell fit if `room` containers may be opened in it. -/
def Cell.Fits (room : Nat) (c : Cell) : Prop := c.finiteNumber = true ∧ c.depth ≤ room

theorem Cell.fits_iff {room : Nat} {c : Cell} :
    c.Fits room ↔ (∀ x, c.number = some x → x.isFinite = true) ∧ (∀ f, c.displayFormat = some f → 1 ≤ room) ∧
      ∀ hs, c.headerOverrides = some hs → (if hs = [] then 1 else 2) ≤ room := by
  obtain ⟨_, _, number, _, displayFormat, headerOverrides, _, _, _⟩ := c
  rw [Fits, depth, Nat.max_le]
  cases number <;> cases displayFormat <;> cases headerOverrides <;> simp [finiteNumber]

theorem room_of_headerOverrides {room : Nat} {rest rest' : Text} {hs : List HeaderOverride}
    (h : HeaderOverride.readAll room rest = .ok (hs, rest')) : (if hs = [] then 1 else 2) ≤ room := by
  cases room with
  | zero => exact absurd h readList_none_ne_ok
  | succ room =>
    cases hs with
    | nil => exact Nat.le_add_left 1 room
    | cons o hs =>
      have hroom := forall_of_readList (fun _ _ _ ho => room_pos_of_readRecord ho) h o List.mem_cons_self
      rw [if_neg (List.cons_ne_nil o hs)]
      exact Nat.succ_le_succ hroom

/-! ## Payloads -/

theorem eq_of_reading {α β : Type} {set : β → α → α} {r : Except Failure (β × Text)} {change : α → α} {rest : Text}
    (h : reading set r = .ok (change, rest)) : ∃ b, r = .ok (b, rest) ∧ change = set b := by
  obtain ⟨⟨b, t⟩, hr, h⟩ := bind_eq_ok_iff.1 h
  cases h
  exact ⟨b, hr, rfl⟩

namespace Payload

variable {room : Nat}

/-- No member takes away that the cells inside of a payload and its other members fit. -/
theorem change_fits {readCells : Text → Except Failure (List Payload × Text)} {Q : Payload → Prop}
    (hcells : ∀ t ps t', readCells t = .ok (ps, t') → ∀ p ∈ ps, Q p) (f : Field) (t : Text)
    (change : Payload → Payload) (t' : Text) (h : (shape room readCells).read f t = .ok (change, t')) (p : Payload)
    (hp : p.cell.Fits room ∧ ∀ q ∈ p.cells, Q q) : (change p).cell.Fits room ∧ ∀ q ∈ (change p).cells, Q q := by
  obtain ⟨hcell, hinner⟩ := hp
  obtain ⟨hnumber, hformat, hheaders⟩ := Cell.fits_iff.1 hcell
  unfold shape at h
  cases f with
  | number =>
    dsimp only at h
    obtain ⟨x?, hx, rfl⟩ := eq_of_reading h
    refine ⟨Cell.fits_iff.2 ⟨fun x hsome => ?_, hformat, hheaders⟩, hinner⟩
    cases hsome
    obtain ⟨_, _, hread⟩ := readOptional_eq_some hx
    exact isFinite_of_readFloat hread
  | displayFormat =>
    dsimp only at h
    obtain ⟨f?, hf, rfl⟩ := eq_of_reading h
    refine ⟨Cell.fits_iff.2 ⟨hnumber, fun f hsome => ?_, hheaders⟩, hinner⟩
    cases hsome
    obtain ⟨_, _, hread⟩ := readOptional_eq_some hf
    exact room_pos_of_readRecord hread
  | headerOverrides =>
    dsimp only at h
    obtain ⟨hs?, hhs, rfl⟩ := eq_of_reading h
    refine ⟨Cell.fits_iff.2 ⟨hnumber, hformat, fun hs hsome => ?_⟩, hinner⟩
    cases hsome
    obtain ⟨_, _, hread⟩ := readOptional_eq_some hhs
    exact room_of_headerOverrides hread
  | cells =>
    dsimp only at h
    obtain ⟨ps, hps, rfl⟩ := eq_of_reading h
    exact ⟨hcell, hcells _ _ _ hps⟩
  | _ =>
    -- The other members take up no container and are no numbers.
    dsimp only at h
    obtain ⟨_, _, rfl⟩ := eq_of_reading h
    exact ⟨Cell.fits_iff.2 ⟨hnumber, hformat, hheaders⟩, hinner⟩

theorem fits_of_read (room : Nat) :
    (∀ t p t', read room t = .ok (p, t') → Fits room p) ∧
    ∀ t ps t', readCells room t = .ok (ps, t') → ∀ p ∈ ps, p.finiteNumbers = true ∧ p.depth + 1 ≤ room := by
  induction room with
  | zero =>
    constructor
    · intro t p t' h
      rw [read] at h
      exact absurd h readRecord_none_ne_ok
    · intro t ps t' h
      exact absurd h readList_none_ne_ok
  | succ room ih =>
    constructor
    · rintro t ⟨c, ps⟩ t' h
      have hempty : Cell.Fits room {} := ⟨rfl, Nat.zero_le room⟩
      exact fits_succ_iff.2 (readRecord_preserves (change_fits ih.2) ⟨hempty, List.forall_mem_nil _⟩ h)
    · intro t ps t' h p hp
      obtain ⟨hfinite, hdepth⟩ := forall_of_readList ih.1 h p hp
      exact ⟨hfinite, Nat.succ_le_succ hdepth⟩

theorem fits_of_ofJson {t : Text} {p : Payload} (h : ofJson t = .ok p) : Fits maxOpen p := by
  obtain ⟨⟨q, rest⟩, hread, h⟩ := bind_eq_ok_iff.1 h
  dsimp only at h
  split at h
  · cases h
    exact (fits_of_read maxOpen).1 _ _ _ hread
  · cases h

end Payload

end CellFormat
