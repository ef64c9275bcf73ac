import CellFormat.Payload.Basic
import CellFormat.Proofs.Binary64.Rounding
/-!
# Depth and numbers of a payload

Two properties decide whether a payload survives being written and read: how
many containers are open at once in its text (`Payload.depth`), and that all its
numbers are finite, at every depth (`Payload.finiteNumbers`).
-/

namespace CellFormat

namespace Cell

/-- The containers of the own members: a display format is one, header overrides are a list of
them. -/
def depth (c : Cell) : Nat :=
  max (c.displayFormat.elim 0 fun _ => 1) (c.headerOverrides.elim 0 fun hs => if hs = [] then 1 else 2)

def finiteNumber (c : Cell) : Bool := c.number.all Binary64.isFinite

end Cell

namespace Payload

mutual

/-- How many containers are open at once, at most, in the text of a payload. -/
def depth : Payload → Nat
  | ⟨cell, cells⟩ => 1 + max cell.depth (depthOfCells cells)

/-- The same for the member with the cells; there is none if there are no cells. -/
def depthOfCells : List Payload → Nat
  | [] => 0
  | p :: ps => max (1 + depth p) (depthOfCells ps)

end

mutual

/-- No number at any depth is infinite or NaN. -/
def finiteNumbers : Payload → Bool
  | ⟨cell, cells⟩ => cell.finiteNumber && finiteNumbersOfCells cells

def finiteNumbersOfCells : List Payload → Bool
  | [] => true
  | p :: ps => finiteNumbers p && finiteNumbersOfCells ps

end

theorem depthOfCells_le_iff {ps : List Payload} {n : Nat} : depthOfCells ps ≤ n ↔ ∀ p ∈ ps, 1 + p.depth ≤ n := by
  induction ps with
  | nil => simp [depthOfCells]
  | cons p ps ih => rw [depthOfCells, Nat.max_le, ih, List.forall_mem_cons]

theorem finiteNumbersOfCells_iff {ps : List Payload} :
    finiteNumbersOfCells ps = true ↔ ∀ p ∈ ps, p.finiteNumbers = true := by
  induction ps with
  | nil => simp [finiteNumbersOfCells]
  | cons p ps ih => simp [finiteNumbersOfCells, ih]

/-- The payload can be written and read if `room` containers may be open. -/
def Fits (room : Nat) (p : Payload) : Prop := p.finiteNumbers = true ∧ p.depth ≤ room

theorem not_fits_zero {p : Payload} : ¬ Fits 0 p := by
  obtain ⟨c, ps⟩ := p
  simp [Fits, depth]

/-- One container is the payload itself, and one the list of its cells. -/
theorem fits_succ_iff {room : Nat} {c : Cell} {ps : List Payload} :
    Fits (room + 1) ⟨c, ps⟩ ↔
      (c.finiteNumber = true ∧ c.depth ≤ room) ∧ ∀ p ∈ ps, p.finiteNumbers = true ∧ p.depth + 1 ≤ room := by
  simp only [Fits, finiteNumbers, depth, Bool.and_eq_true, finiteNumbersOfCells_iff]
  rw [Nat.add_comm 1, Nat.add_le_add_iff_right, Nat.max_le, depthOfCells_le_iff]
  simp only [Nat.add_comm 1, forall_and]
  exact and_and_and_comm

end Payload

end CellFormat
