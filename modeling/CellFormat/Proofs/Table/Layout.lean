import CellFormat.Proofs.Table.Results
import CellFormat.Table.Html
import Mathlib.Data.List.GetD
/-!
# What an array shows

The table of an array is laid out in rows of one length, and `ofResults_eq_write`
says that it is these rows, written out. So what the table shows are the
contents of their cells (`Layout.contents`).

A header takes the place of one row. If only some cells of a row are marked,
the others go to the body and one row less is written than they need:
`perm_contents` says that the texts shown and those left over (`leftover`) are
all that the cells of the array display, and `leftover_eq_nil_of_uniform` that
none are left over if the row with the header is marked throughout.
-/

namespace CellFormat

namespace Table

/-! ## Rows -/

/-- The contents of a row of `cols` cells. -/
def rowContents (cells : List Text) (cols row : Nat) : List Text :=
  (List.range cols).map fun col => cells.getD (row * cols + col) []

/-- A row of cells with the given contents, each of them between the tags of its cell. -/
def writeRow (cellOpen cellClose : Text) (contents : List Text) : Text :=
  "<tr>".toList ++ (contents.flatMap fun t => cellOpen ++ t ++ cellClose) ++ "</tr>".toList

theorem row_eq_writeRow (cells : List Text) (cols r : Nat) (isHeader : Bool) :
    row cells cols r isHeader =
      writeRow (if isHeader then "<th>".toList else "<td>".toList)
        (if isHeader then "</th>".toList else "</td>".toList) (rowContents cells cols r) := by
  unfold row writeRow rowContents
  rw [List.flatMap_map]
  cases isHeader <;> rfl

/-- The contents of rows one behind the other are those of one long row. -/
theorem flatten_rowContents (cells : List Text) (cols rows : Nat) :
    ((List.range rows).map (rowContents cells cols)).flatten = rowContents cells (rows * cols) 0 := by
  induction rows with
  | zero => simp [rowContents]
  | succ rows ih =>
    rw [List.range_succ, List.map_append, List.flatten_append, ih]
    simp [rowContents, Nat.succ_mul, List.range_add]

theorem rowContents_zero (cells : List Text) (n : Nat) :
    rowContents cells n 0 = cells.take n ++ List.replicate (n - cells.length) [] := by
  apply List.ext_getElem
  · simp [rowContents]
    omega
  · intro i hi hi'
    simp only [rowContents, List.getElem_map, List.getElem_range, List.getElem_append, List.getElem_take,
      List.getElem_replicate, List.length_take, Nat.zero_mul, Nat.zero_add]
    split
    · next h => rw [List.getD_eq_getElem cells [] (by omega)]
    · next h =>
      simp only [rowContents, List.length_map, List.length_range] at hi
      exact List.getD_eq_default cells [] (by omega)

/-! ## Layouts -/

/-- The rows of a table, cell by cell. -/
structure Layout where
  head : List (List Text)
  body : List (List Text)
  deriving DecidableEq, Repr

namespace Layout

/-- The table with these rows, tag by tag. -/
def write (l : Layout) : Text :=
  "<table class=\"array\">".toList
    ++ (l.head.flatMap fun r => "<thead>".toList ++ writeRow "<th>".toList "</th>".toList r ++ "</thead>".toList)
    ++ (l.body.flatMap fun r => "<tbody>".toList ++ writeRow "<td>".toList "</td>".toList r ++ "</tbody>".toList)
    ++ "</table>".toList

/-- The contents of all cells. -/
def contents (l : Layout) : List Text := (l.head ++ l.body).flatten

end Layout

/-- The number of rows below the header. -/
def bodyRows (results : Results) (rows : Nat) : Nat := if results.header = [] then rows else rows - 1

/-- Header and body in rows of `cols` cells. -/
def layout (results : Results) (cols rows : Nat) : Layout where
  head := if results.header = [] then [] else [rowContents results.header cols 0]
  body := (List.range (bodyRows results rows)).map (rowContents results.body cols)

theorem ofResults_eq_write (results : Results) (cols rows : Nat) :
    ofResults results cols rows = (layout results cols rows).write := by
  have htable : ∀ t, styled "array".toList t = "<table class=\"array\">".toList ++ t ++ "</table>".toList := fun _ => rfl
  have hhead : ∀ t, Markup.element "thead".toList [] t = "<thead>".toList ++ t ++ "</thead>".toList := fun _ => rfl
  have hbody : ∀ t, Markup.element "tbody".toList [] t = "<tbody>".toList ++ t ++ "</tbody>".toList := fun _ => rfl
  unfold ofResults Layout.write layout bodyRows
  simp only [htable, hhead, hbody, row_eq_writeRow, Bool.false_eq_true, if_false, if_true, List.flatMap_map]
  by_cases h : results.header = []
  · simp only [if_pos h, List.flatMap_nil, List.append_nil, List.nil_append]
  · simp only [if_neg h, List.flatMap_singleton, List.append_assoc]

/-! ## What is shown -/

/-- The texts that are not empty. -/
def nonempty (ts : List Text) : List Text := ts.filter (· ≠ [])

@[simp] theorem nonempty_append (ts us : List Text) : nonempty (ts ++ us) = nonempty ts ++ nonempty us :=
  List.filter_append ..

theorem nonempty_rowContents_zero (cells : List Text) (n : Nat) :
    nonempty (rowContents cells n 0) = nonempty (cells.take n) := by
  rw [rowContents_zero, nonempty_append]
  simp [nonempty]

/-- The body texts that the rows below the header have no place for. -/
def leftover (results : Results) (cols rows : Nat) : List Text :=
  results.body.drop (bodyRows results rows * cols)

theorem nonempty_contents {results : Results} {cols : Nat} (h : results.header.length ≤ cols) (rows : Nat) :
    nonempty (layout results cols rows).contents =
      nonempty results.header ++ nonempty (results.body.take (bodyRows results rows * cols)) := by
  have hbody : nonempty (layout results cols rows).body.flatten =
      nonempty (results.body.take (bodyRows results rows * cols)) := by
    rw [layout, flatten_rowContents, nonempty_rowContents_zero]
  have hhead : nonempty (layout results cols rows).head.flatten = nonempty results.header := by
    by_cases hne : results.header = []
    · simp [layout, hne]
    · simp [layout, hne, nonempty_rowContents_zero, List.take_of_length_le h]
  rw [Layout.contents, List.flatten_append, nonempty_append, hhead, hbody]

theorem nonempty_contents_append_leftover {results : Results} {cols : Nat} (h : results.header.length ≤ cols)
    (rows : Nat) :
    nonempty ((layout results cols rows).contents ++ leftover results cols rows) =
      nonempty (results.header ++ results.body) := by
  rw [nonempty_append, nonempty_contents h, List.append_assoc, leftover, ← nonempty_append, List.take_append_drop,
    nonempty_append]

end Table

/-! ## Arrays -/

namespace Payload

open Table

/-- The rows of the table of an array. -/
def layout (p : Payload) : Layout := Table.layout (.ofPayload p) p.cell.cols.toNat p.cell.rows.toNat

/-- What the cells of an array display. -/
def values (p : Payload) : List Text := p.grid.flatten.map display

/-- Those values of an array that its table has no place for. -/
def leftover (p : Payload) : List Text := Table.leftover (.ofPayload p) p.cell.cols.toNat p.cell.rows.toNat

variable {p : Payload}

theorem perm_contents (hk : p.cell.kind = .array) :
    (nonempty p.layout.contents ++ nonempty p.leftover).Perm (nonempty p.values) := by
  have hh : (Results.ofPayload p).header.length ≤ p.cell.cols.toNat := by
    rw [Results.ofPayload_of_array hk]
    exact Results.length_header_le fun _ => length_le_of_mem_grid
  rw [← nonempty_append, layout, leftover, nonempty_contents_append_leftover hh, Results.ofPayload_of_array hk]
  exact (Results.perm_ofRows p.grid).filter _

theorem leftover_eq_nil_of_uniform (hk : p.cell.kind = .array) (hu : Results.Uniform p.grid) : p.leftover = [] := by
  have hrows : ∀ row ∈ p.grid, row.length ≤ p.cell.cols.toNat := fun _ => length_le_of_mem_grid
  rw [leftover, Table.leftover, List.drop_eq_nil_iff, bodyRows, Results.ofPayload_of_array hk, ← length_grid]
  split
  · exact Results.length_body_le hrows
  · next hh => exact Results.length_body_le_of_uniform hrows hu hh

/-- The table of an array consists of rows, and what they show and what is left over are the values
of the array, each of them once. So all that is not empty is shown exactly if nothing but empty
values are left over, and that is so if the row with the header is marked throughout. -/
theorem contents_of_array_table (hk : p.cell.kind = .array) (l : Language) :
    Table.ofPayload p l = p.layout.write ∧
    (nonempty p.layout.contents ++ nonempty p.leftover).Perm (nonempty p.values) ∧
    ((nonempty p.layout.contents).Perm (nonempty p.values) ↔ nonempty p.leftover = []) ∧
    (Results.Uniform p.grid → p.leftover = []) := by
  have hperm := perm_contents hk
  refine ⟨?_, hperm, ?_, leftover_eq_nil_of_uniform hk⟩
  · rw [Table.ofPayload, if_pos hk, ofResults_eq_write, layout]
  · constructor
    · intro h
      have hlen := (hperm.trans h.symm).length_eq
      rw [List.length_append] at hlen
      exact List.length_eq_zero_iff.1 (by omega)
    · intro h
      rwa [h, List.append_nil] at hperm

/-- Two cells in a row, the first of them marked: the second has no row to be shown in. -/
theorem contents_of_array_table_unmarked_cell :
    let p := ofCells 1 2 [(ofText "a".toList).asHeader, ofText "b".toList]
    Table.ofPayload p .english =
      "<table class=\"array\"><thead><tr><th>a</th><th></th></tr></thead></table>".toList ∧
    nonempty p.layout.contents = ["a".toList] ∧ nonempty p.values = ["a".toList, "b".toList] ∧
    ¬ ∀ p : Payload, p.cell.kind = .array → (nonempty p.layout.contents).Perm (nonempty p.values) := by
  intro p
  have hshown : nonempty p.layout.contents = ["a".toList] := by with_unfolding_all decide
  have hvalues : nonempty p.values = ["a".toList, "b".toList] := by with_unfolding_all decide
  refine ⟨by decide +kernel, hshown, hvalues, fun h => ?_⟩
  have hlen := (h p rfl).length_eq
  rw [hshown, hvalues] at hlen
  exact absurd hlen (by decide)

/-- A marked row below another one, a mark that comes too late, and a cell missing at the end. -/
theorem contents_of_array_table_marked_row :
    let p := ofCells 3 2 [ofText "a".toList, ofText [], (ofText "x".toList).asHeader, (ofText "y".toList).asHeader,
      (ofText "b".toList).asHeader]
    p.cell.kind = .array ∧ Results.Uniform p.grid ∧ p.leftover = [] ∧
      (nonempty p.layout.contents).Perm (nonempty p.values) := by
  intro p
  have hu : Results.Uniform p.grid := by decide
  obtain ⟨-, -, hshown, hfits⟩ := contents_of_array_table (p := p) rfl .english
  exact ⟨rfl, hu, hfits hu, hshown.2 (by rw [hfits hu]; rfl)⟩

end Payload

end CellFormat
