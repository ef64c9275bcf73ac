import CellFormat.Proofs.Table.Layout
import Mathlib.Data.List.Basic
/-!
# Every cell of an array has its place

The cells of an array come in one list, from which the body is a list again, cut
into rows anew. `Payload.positions` says where each cell is shown: with a header,
the rows below it move up by one, and all others stay where they are.

`array_table_by_position`: if the row with the header is marked throughout, these
rows are the table of the array, and marks below the header change nothing.
-/

namespace CellFormat

open Table

/-! ## Rows one behind the other -/

theorem filterMap_getElem?_range {α : Type} (xs : List α) (s n : Nat) :
    (List.range n).filterMap (fun i => xs[s + i]?) = (xs.drop s).take n := by
  induction n with
  | zero => rfl
  | succ n ih =>
    rw [List.range_succ, List.filterMap_append, ih, List.take_add_one, List.getElem?_drop]
    cases h : xs[s + n]? <;> simp [h]

/-- A place in rows of `cols` cells is in the first `n` of them if its row is. -/
theorem place_lt {cols r n col : Nat} (hr : r < n) (hcol : col < cols) : cols * r + col < cols * n :=
  calc cols * r + col < cols * r + cols := Nat.add_lt_add_left hcol _
    _ = cols * (r + 1) := rfl
    _ ≤ cols * n := Nat.mul_le_mul_left cols hr

namespace Payload

variable (p : Payload)

theorem row_eq_take_drop (r : Nat) :
    p.row r = (p.cells.drop (p.cell.cols.toNat * r)).take p.cell.cols.toNat :=
  filterMap_getElem?_range p.cells _ _

/-- The `n` rows from the row `s` on are one piece of the list of cells. -/
theorem flatten_rows (s n : Nat) :
    ((List.range' s n).map p.row).flatten =
      (p.cells.drop (p.cell.cols.toNat * s)).take (p.cell.cols.toNat * n) := by
  induction n generalizing s with
  | zero => simp
  | succ n ih =>
    rw [List.range'_succ, List.map_cons, List.flatten_cons, ih, row_eq_take_drop, Nat.mul_succ, Nat.mul_succ,
      Nat.add_comm (_ * n), List.take_add, List.drop_drop]

theorem getElem?_flatten_rows {s n r col : Nat} (hr : r < n) (hcol : col < p.cell.cols.toNat) :
    ((List.range' s n).map p.row).flatten[p.cell.cols.toNat * r + col]? = p.at? (s + r) col := by
  rw [flatten_rows, List.getElem?_take_of_lt (place_lt hr hcol), List.getElem?_drop, at?, Nat.mul_add, Nat.add_assoc]

/-- If there is a cell in a row, then all rows above are full. -/
theorem length_flatten_rows {h : Nat} (hrow : p.row h ≠ []) :
    ((List.range' 0 h).map p.row).flatten.length = p.cell.cols.toNat * h := by
  have hlt : p.cell.cols.toNat * h < p.cells.length := by
    apply Nat.lt_of_not_le
    intro hle
    rw [row_eq_take_drop, List.drop_eq_nil_of_le hle, List.take_nil] at hrow
    exact hrow rfl
  rw [flatten_rows, Nat.mul_zero, List.drop_zero, List.length_take, Nat.min_eq_left (Nat.le_of_lt hlt)]

/-! ## Where the cells are shown -/

/-- The contents of a row, place by place. Where there is no cell nothing is shown. -/
def shownRow (r : Nat) : List Text :=
  (List.range p.cell.cols.toNat).map fun col => ((p.at? r col).map display).getD []

/-- The first row that has a marked cell. -/
def headerRow? : Option Nat :=
  (List.range p.cell.rows.toNat).find? fun r => (p.row r).any (·.cell.isHeader)

/-- The rows of the table of an array: as they are if there is no header, else the row with the
header above and all others below, in their order. -/
def positions : Layout :=
  match p.headerRow? with
  | none => { head := [], body := (List.range p.cell.rows.toNat).map p.shownRow }
  | some h =>
    { head := [p.shownRow h]
      body := (List.range (p.cell.rows.toNat - 1)).map fun r => p.shownRow (if r < h then r else r + 1) }

variable {p}

theorem headerRow?_eq_some_iff {h : Nat} :
    p.headerRow? = some h ↔ (p.row h).any (·.cell.isHeader) = true ∧ h < p.cell.rows.toNat ∧
      ∀ r < h, (p.row r).any (·.cell.isHeader) = false := by
  simp only [headerRow?, List.find?_range_eq_some, List.mem_range, Bool.not_eq_true']

theorem uniform_grid_iff :
    Results.Uniform p.grid ↔ ∀ h, p.headerRow? = some h → ∀ q ∈ p.row h, q.cell.isHeader := by
  have hfind : p.grid.find? (·.any (·.cell.isHeader)) = p.headerRow?.map p.row := List.find?_map ..
  rw [Results.Uniform, hfind]
  cases p.headerRow? <;> simp

theorem rowContents_eq_shownRow {texts : List Text} {r s : Nat}
    (h : ∀ col < p.cell.cols.toNat, texts[p.cell.cols.toNat * r + col]? = (p.at? s col).map display) :
    rowContents texts p.cell.cols.toNat r = p.shownRow s := by
  apply List.map_congr_left
  intro col hcol
  rw [List.getD_eq_getElem?_getD, Nat.mul_comm r, h col (List.mem_range.1 hcol)]

theorem layout_eq_positions_of_none (hk : p.cell.kind = .array) (hh : p.headerRow? = none) :
    p.layout = p.positions := by
  have hresults : Results.ofPayload p = { header := [], body := p.grid.flatten.map display } := by
    rw [Results.ofPayload_of_array hk]
    apply Results.ofRows_of_unmarked
    simpa [grid, headerRow?] using hh
  rw [layout, positions, hh, hresults]
  simp only [Table.layout, bodyRows, if_pos]
  congr 1
  apply List.map_congr_left
  intro r hr
  apply rowContents_eq_shownRow
  intro col hcol
  rw [List.getElem?_map, grid, List.range_eq_range', p.getElem?_flatten_rows (List.mem_range.1 hr) hcol, Nat.zero_add]

theorem ofPayload_of_headerRow {h : Nat} (hk : p.cell.kind = .array) (hu : Results.Uniform p.grid)
    (hh : p.headerRow? = some h) :
    Results.ofPayload p =
      { header := (p.row h).map display
        body := (((List.range' 0 h).map p.row).flatten ++
          ((List.range' (h + 1) (p.cell.rows.toNat - 1 - h)).map p.row).flatten).map display } := by
  obtain ⟨hany, hlt, hbefore⟩ := headerRow?_eq_some_iff.1 hh
  have hrange : List.range p.cell.rows.toNat =
      List.range' 0 h ++ h :: List.range' (h + 1) (p.cell.rows.toNat - 1 - h) := by
    obtain ⟨k, hk⟩ := Nat.exists_eq_add_of_lt hlt
    have hsub : p.cell.rows.toNat - 1 - h = k := by omega
    have happend := @List.range'_append_1 0 h (k + 1)
    rw [hsub, hk, ← List.range'_succ, List.range_eq_range', Nat.add_assoc, ← happend, Nat.zero_add]
  rw [Results.ofPayload_of_array hk, grid, hrange, List.map_append, List.map_cons, ← List.flatten_append]
  apply Results.ofRows_append_cons
  · intro row hrow
    obtain ⟨r, hr, rfl⟩ := List.mem_map.1 hrow
    exact hbefore r (by simpa using hr)
  · exact hany
  · exact uniform_grid_iff.1 hu h hh

/-- Below the header, a cell is shown in the row above its own one. -/
theorem getElem?_flatten_rows_around {h n r col : Nat} (hrow : p.row h ≠ []) (hr : r < h + n)
    (hcol : col < p.cell.cols.toNat) :
    (((List.range' 0 h).map p.row).flatten ++
        ((List.range' (h + 1) n).map p.row).flatten)[p.cell.cols.toNat * r + col]? =
      p.at? (if r < h then r else r + 1) col := by
  -- The header has a cell, so the rows above it are full and those below begin at a whole row.
  have hlen := p.length_flatten_rows hrow
  by_cases hrh : r < h
  · rw [if_pos hrh, List.getElem?_append_left (hlen ▸ place_lt hrh hcol), p.getElem?_flatten_rows hrh hcol,
      Nat.zero_add]
  · obtain ⟨k, rfl⟩ := Nat.exists_eq_add_of_le (Nat.le_of_not_lt hrh)
    have hplace : p.cell.cols.toNat * (h + k) + col =
        ((List.range' 0 h).map p.row).flatten.length + (p.cell.cols.toNat * k + col) := by
      rw [hlen, Nat.mul_add, Nat.add_assoc]
    rw [if_neg hrh, hplace, List.getElem?_append_right (Nat.le_add_right ..), Nat.add_sub_cancel_left,
      p.getElem?_flatten_rows (Nat.lt_of_add_lt_add_left hr) hcol, Nat.add_right_comm]

theorem layout_eq_positions_of_some {h : Nat} (hk : p.cell.kind = .array) (hu : Results.Uniform p.grid)
    (hh : p.headerRow? = some h) : p.layout = p.positions := by
  obtain ⟨hany, hlt, -⟩ := headerRow?_eq_some_iff.1 hh
  have hrow : p.row h ≠ [] := by
    intro hnil
    simp [hnil] at hany
  rw [layout, positions, hh, ofPayload_of_headerRow hk hu hh]
  simp only [Table.layout, bodyRows, List.map_eq_nil_iff, hrow, if_false]
  congr 1
  -- The row with the header may be short, but it begins where the row of the table does.
  · apply congrArg (· :: [])
    apply rowContents_eq_shownRow
    intro col hcol
    rw [List.getElem?_map, row_eq_take_drop, Nat.mul_zero, Nat.zero_add, List.getElem?_take_of_lt hcol,
      List.getElem?_drop, at?]
  · apply List.map_congr_left
    intro r hr
    have hr : r < h + (p.cell.rows.toNat - 1 - h) := by
      have := List.mem_range.1 hr
      omega
    apply rowContents_eq_shownRow
    intro col hcol
    rw [List.getElem?_map, getElem?_flatten_rows_around hrow hr hcol]

theorem layout_eq_positions (hk : p.cell.kind = .array) (hu : Results.Uniform p.grid) : p.layout = p.positions := by
  cases hh : p.headerRow? with
  | none => exact layout_eq_positions_of_none hk hh
  | some h => exact layout_eq_positions_of_some hk hu hh

/-! ## Marks below the header -/

/-- The payload with the cells from the `n`-th one on marked as `marks` says. -/
def markedFrom (p : Payload) (n : Nat) (marks : Nat → Bool) : Payload where
  cell := p.cell
  cells := p.cells.mapIdx fun i q => if i < n then q else { q with cell := { q.cell with isHeader := marks i } }

section Marks

variable {n : Nat} (marks : Nat → Bool)

theorem getElem?_markedFrom_of_lt {i : Nat} (hi : i < n) : (p.markedFrom n marks).cells[i]? = p.cells[i]? := by
  rw [markedFrom, List.getElem?_mapIdx]
  simp [hi]

/-- What a cell shows does not depend on its mark. -/
theorem map_display_at?_markedFrom (r col : Nat) :
    ((p.markedFrom n marks).at? r col).map display = (p.at? r col).map display := by
  rw [at?, at?, markedFrom, List.getElem?_mapIdx, Option.map_map]
  congr 1
  funext q
  rw [Function.comp_apply, apply_ite display]
  exact ite_self _

theorem shownRow_markedFrom (r : Nat) : (p.markedFrom n marks).shownRow r = p.shownRow r := by
  simp only [shownRow, map_display_at?_markedFrom]
  rfl

/-- The rows above the marks stay as they are. -/
theorem row_markedFrom {h r : Nat} (hr : r ≤ h) :
    (p.markedFrom (p.cell.cols.toNat * (h + 1)) marks).row r = p.row r := by
  apply List.filterMap_congr
  intro col hcol
  exact getElem?_markedFrom_of_lt marks (place_lt (Nat.lt_succ_of_le hr) (List.mem_range.1 hcol))

theorem headerRow?_markedFrom {h : Nat} (hh : p.headerRow? = some h) :
    (p.markedFrom (p.cell.cols.toNat * (h + 1)) marks).headerRow? = some h := by
  obtain ⟨hany, hlt, hbefore⟩ := headerRow?_eq_some_iff.1 hh
  refine headerRow?_eq_some_iff.2 ⟨?_, hlt, ?_⟩
  · rwa [row_markedFrom marks (Nat.le_refl h)]
  · intro r hr
    rw [row_markedFrom marks (Nat.le_of_lt hr)]
    exact hbefore r hr

theorem uniform_markedFrom {h : Nat} (hu : Results.Uniform p.grid) (hh : p.headerRow? = some h) :
    Results.Uniform (p.markedFrom (p.cell.cols.toNat * (h + 1)) marks).grid := by
  rw [uniform_grid_iff, headerRow?_markedFrom marks hh]
  rintro _ ⟨⟩
  rw [row_markedFrom marks (Nat.le_refl h)]
  exact uniform_grid_iff.1 hu h hh

theorem positions_markedFrom {h : Nat} (hh : p.headerRow? = some h) :
    (p.markedFrom (p.cell.cols.toNat * (h + 1)) marks).positions = p.positions := by
  simp only [positions, headerRow?_markedFrom marks hh, hh, shownRow_markedFrom]
  rfl

end Marks

/-! ## The table -/

theorem table_eq_positions (hk : p.cell.kind = .array) (hu : Results.Uniform p.grid) (l : Language) :
    Table.ofPayload p l = p.positions.write := by
  rw [Table.ofPayload, if_pos hk, ofResults_eq_write, ← layout_eq_positions hk hu, layout]

/-- If the row with the header is marked throughout, the table of an array shows the header above
and the other rows below, each cell in the column that it has in the array, and places without a
cell are empty. Marks below the header change nothing. -/
theorem array_table_by_position (hk : p.cell.kind = .array) (hu : Results.Uniform p.grid) (l : Language) :
    Table.ofPayload p l = p.positions.write ∧
    ∀ h, p.headerRow? = some h → ∀ marks : Nat → Bool,
      Table.ofPayload (p.markedFrom (p.cell.cols.toNat * (h + 1)) marks) l = Table.ofPayload p l := by
  refine ⟨table_eq_positions hk hu l, ?_⟩
  intro h hh marks
  have hmarked : (p.markedFrom (p.cell.cols.toNat * (h + 1)) marks).cell.kind = .array := hk
  rw [table_eq_positions hk hu, table_eq_positions hmarked (uniform_markedFrom marks hu hh),
    positions_markedFrom marks hh]

/-- The header between other rows, a mark below it, and a cell missing at the end. -/
theorem array_table_by_position_header_between :
    let p := ofCells 4 2 [ofText "a".toList, ofText "b".toList, (ofText "X".toList).asHeader,
      (ofText "Y".toList).asHeader, (ofText "c".toList).asHeader, ofText "d".toList, ofText "e".toList]
    let shown : Text :=
      "<table class=\"array\"><thead><tr><th>X</th><th>Y</th></tr></thead>".toList ++
        "<tbody><tr><td>a</td><td>b</td></tr></tbody><tbody><tr><td>c</td><td>d</td></tr></tbody>".toList ++
        "<tbody><tr><td>e</td><td></td></tr></tbody></table>".toList
    p.cell.kind = .array ∧ Results.Uniform p.grid ∧ p.headerRow? = some 1 ∧ Table.ofPayload p .english = shown ∧
      Table.ofPayload (p.markedFrom 4 (· = 6)) .english = shown := by
  intro p shown
  have hu : Results.Uniform p.grid := by decide
  have hh : p.headerRow? = some 1 := by decide
  have hshown : p.positions.write = shown := by decide +kernel
  obtain ⟨htable, hmarks⟩ := array_table_by_position (p := p) rfl hu .english
  rw [hshown] at htable
  exact ⟨rfl, hu, hh, htable, (hmarks 1 hh _).trans htable⟩

end Payload

end CellFormat
