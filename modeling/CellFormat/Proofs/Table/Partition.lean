import CellFormat.Proofs.Table.Positions
/-!
# Header and body divide the cells of an array

Every cell in the range of an array goes either to the header or to the body.
`inHeader` says to which, and `header_and_body_of_array` that header and body
are the cells on either side of it, in the order of the rows and columns, each
of them once.

The rows are looked at one after the other, so both parts are found for a list
of row numbers first: `header_ofRows` and `body_ofRows` follow the rows until
the first one that has a marked cell.
-/

namespace CellFormat

namespace Payload

variable (p : Payload)

/-- Whether a row has a marked cell. -/
def isMarked (r : Nat) : Bool := (p.row r).any (·.cell.isHeader)

/-- Whether a cell of row `r` goes to the header: it is marked, and the row is the first one that has
a marked cell. -/
def inHeader (r : Nat) (q : Payload) : Bool := p.headerRow? = some r && q.cell.isHeader

variable {p}

/-! ## Row by row -/

theorem header_ofRows (rs : List Nat) :
    (Results.ofRows (rs.map p.row)).header =
      (rs.find? p.isMarked).elim [] fun h => ((p.row h).filter (·.cell.isHeader)).map display := by
  induction rs with
  | nil => rfl
  | cons r rs ih =>
    rw [List.map_cons, Results.ofRows, List.find?_cons, ← isMarked]
    cases p.isMarked r with
    | true => rfl
    | false => exact ih

/-- A row without a marked cell stays in the body as a whole. -/
theorem filter_of_not_isMarked {r : Nat} (hr : p.isMarked r = false) (first : Bool) :
    (p.row r).filter (fun q => !(first && q.cell.isHeader)) = p.row r := by
  rw [List.filter_eq_self]
  intro q hq
  have hmark := List.any_eq_false.1 hr q hq
  simp [hmark]

theorem body_ofRows {rs : List Nat} (hrs : rs.Nodup) :
    (Results.ofRows (rs.map p.row)).body =
      rs.flatMap fun r =>
        ((p.row r).filter fun q => !(rs.find? p.isMarked = some r && q.cell.isHeader)).map display := by
  induction rs with
  | nil => rfl
  | cons r rs ih =>
    obtain ⟨hr, hrs⟩ := List.nodup_cons.1 hrs
    rw [List.map_cons, Results.ofRows, List.find?_cons, ← isMarked, List.flatMap_cons]
    cases hmark : p.isMarked r with
    | true =>
      -- The rows below are other ones, so nothing is taken out of them.
      have hbelow : (rs.map p.row).flatten.map display =
          rs.flatMap fun s => ((p.row s).filter fun q => !(some r = some s && q.cell.isHeader)).map display := by
        rw [List.map_flatten, List.map_map, ← List.flatMap_def]
        apply List.flatMap_congr
        intro s hs
        have hne : r ≠ s := fun h => hr (h ▸ hs)
        simp [hne]
      rw [if_pos rfl, hbelow]
      simp
    | false =>
      rw [if_neg Bool.false_ne_true, filter_of_not_isMarked hmark]
      exact congrArg (_ ++ ·) (ih hrs)

/-! ## The whole array -/

theorem headerRow?_eq_find? : p.headerRow? = (List.range p.cell.rows.toNat).find? p.isMarked := rfl

/-- The cells in the range are as many as the places, unless the array is shorter. -/
theorem length_flatten_grid : p.grid.flatten.length = min (p.cell.rows.toNat * p.cell.cols.toNat) p.cells.length := by
  rw [grid, List.range_eq_range', flatten_rows, Nat.mul_zero, List.drop_zero, List.length_take, Nat.mul_comm]

/-- The header are the marked cells of the first row that has any, in the order of the columns; the
body are all other cells in the range, row by row. No cell is in both or in none of them, and the
header is no longer than a row. -/
theorem header_and_body_of_array (hk : p.cell.kind = .array) :
    (Results.ofPayload p).header =
      p.headerRow?.elim [] (fun h => ((p.row h).filter (·.cell.isHeader)).map display) ∧
    (Results.ofPayload p).body =
      (List.range p.cell.rows.toNat).flatMap (fun r => ((p.row r).filter fun q => !p.inHeader r q).map display) ∧
    (Results.ofPayload p).header.length + (Results.ofPayload p).body.length =
      min (p.cell.rows.toNat * p.cell.cols.toNat) p.cells.length ∧
    (Results.ofPayload p).header.length ≤ p.cell.cols.toNat := by
  rw [Results.ofPayload_of_array hk]
  refine ⟨?_, ?_, ?_, ?_⟩
  · rw [headerRow?_eq_find?]
    exact header_ofRows _
  · simp only [inHeader, headerRow?_eq_find?]
    exact body_ofRows List.nodup_range
  · rw [← List.length_append, (Results.perm_ofRows p.grid).length_eq, List.length_map, length_flatten_grid]
  · exact Results.length_header_le fun _ => length_le_of_mem_grid

/-- A row with one of its cells marked between other rows, a mark below it, and a cell out of range. -/
theorem header_and_body_of_array_marked_cell :
    let p := ofCells 3 2 [ofText "a".toList, ofText "b".toList, ofText "c".toList, (ofText "X".toList).asHeader,
      (ofText "d".toList).asHeader, ofText "e".toList, (ofText "f".toList).asHeader]
    p.cell.kind = .array ∧ (Results.ofPayload p).header = ["X".toList] ∧
      (Results.ofPayload p).body = ["a".toList, "b".toList, "c".toList, "d".toList, "e".toList] ∧
      1 + 5 = min (3 * 2) p.cells.length := by
  intro p
  obtain ⟨hheader, hbody, hlength, -⟩ := header_and_body_of_array (p := p) rfl
  have hrow : p.headerRow? = some 1 := by decide
  have hfirst : (Results.ofPayload p).header = ["X".toList] := by
    rw [hheader, hrow]
    with_unfolding_all decide
  have hothers : (Results.ofPayload p).body = ["a".toList, "b".toList, "c".toList, "d".toList, "e".toList] := by
    simp only [hbody, inHeader, hrow]
    with_unfolding_all decide
  rw [hfirst, hothers] at hlength
  exact ⟨rfl, hfirst, hothers, hlength⟩

end Payload

end CellFormat
