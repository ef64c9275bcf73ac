import CellFormat.Table.Results
/-!
# Header and body of an array

The walk over an array keeps two marks of how far the header is. Between two
rows they agree: either no marked cell has come yet, or the header is over. So
the walk can be told row by row without them (`ofRows`), and
`ofPayload_of_array` says that this is what it collects.

Header and body together are the cells of the array, each of them once
(`perm_ofRows`), and the header comes from a single row. What is counted here is
what a layout in rows of one length depends on.
-/

namespace CellFormat

namespace Payload

/-- The cells of a row of an array, without the places that hold none. -/
def row (p : Payload) (row : Nat) : List Payload :=
  (List.range p.cell.cols.toNat).filterMap (p.at? row)

/-- The rows of an array. -/
def grid (p : Payload) : List (List Payload) :=
  (List.range p.cell.rows.toNat).map p.row

theorem length_row_le (p : Payload) (r : Nat) : (p.row r).length ≤ p.cell.cols.toNat := by
  have h := List.length_filterMap_le (p.at? r) (List.range p.cell.cols.toNat)
  rwa [List.length_range] at h

theorem length_grid (p : Payload) : p.grid.length = p.cell.rows.toNat := by
  unfold grid
  rw [List.length_map, List.length_range]

theorem length_le_of_mem_grid {p : Payload} {row : List Payload} (h : row ∈ p.grid) :
    row.length ≤ p.cell.cols.toNat := by
  obtain ⟨r, -, rfl⟩ := List.mem_map.1 h
  exact p.length_row_le r

end Payload

namespace Results

/-! ## The walk over an array -/

/-- Header and body of the rows of an array. -/
def ofRows : List (List Payload) → Results
  | [] => { header := [], body := [] }
  | row :: rows =>
    if row.any (·.cell.isHeader) then
      { header := (row.filter (·.cell.isHeader)).map Payload.display
        body := (row.filter (!·.cell.isHeader)).map Payload.display
          ++ rows.flatten.map Payload.display }
    else
      let rest := ofRows rows
      { rest with body := row.map Payload.display ++ rest.body }

namespace Walk

variable {w : Walk}

/-- Once the header is over, all cells go to the body. -/
theorem foldl_cell_of_done (h : w.headerDone = true) (qs : List Payload) :
    qs.foldl cell w = { w with body := w.body ++ qs.map Payload.display } := by
  induction qs generalizing w with
  | nil => simp
  | cons q qs ih =>
    have hq : w.cell q = { w with body := w.body ++ [q.display] } := by simp [cell, h]
    rw [List.foldl_cons, hq, ih]
    · simp
    · exact h

/-- Before that, the marked ones go to the header. -/
theorem foldl_cell_of_not_done (h : w.headerDone = false) (qs : List Payload) :
    qs.foldl cell w =
      { header := w.header ++ (qs.filter (·.cell.isHeader)).map Payload.display
        body := w.body ++ (qs.filter (!·.cell.isHeader)).map Payload.display
        headerSeen := w.headerSeen || qs.any (·.cell.isHeader)
        headerDone := w.headerDone } := by
  induction qs generalizing w with
  | nil => simp
  | cons q qs ih =>
    rw [List.foldl_cons, ih]
    · cases hq : q.cell.isHeader <;> simp [cell, h, hq]
    · unfold cell
      split <;> exact h

theorem row_eq (p : Payload) (w : Walk) (r : Nat) : w.row p r = ((p.row r).foldl cell w).endRow := by
  rw [row, Payload.row, List.foldl_filterMap]
  congr 2
  funext w col
  cases p.at? r col <;> rfl

variable {p : Payload}

/-- The rows after the header stay as they are. -/
theorem foldl_row_of_done (hseen : w.headerSeen = true) (hdone : w.headerDone = true) (rs : List Nat) :
    rs.foldl (row p) w = { w with body := w.body ++ (rs.map p.row).flatten.map Payload.display } := by
  induction rs generalizing w with
  | nil => simp
  | cons r rs ih =>
    have hrow : w.row p r = { w with body := w.body ++ (p.row r).map Payload.display } := by
      rw [row_eq, foldl_cell_of_done hdone, endRow, if_pos hseen, ← hdone]
    rw [List.foldl_cons, hrow, ih]
    · simp
    · exact hseen
    · exact hdone

/-- The rows before the header have no marked cell, and the first one that has any ends it. -/
theorem foldl_row_of_not_seen (hseen : w.headerSeen = false) (hdone : w.headerDone = false) (rs : List Nat) :
    (rs.foldl (row p) w).toResults =
      { header := w.header ++ (ofRows (rs.map p.row)).header, body := w.body ++ (ofRows (rs.map p.row)).body } := by
  induction rs generalizing w with
  | nil => simp [ofRows]
  | cons r rs ih =>
    rw [List.foldl_cons, row_eq, foldl_cell_of_not_done hdone, endRow, List.map_cons, ofRows, hseen, Bool.false_or]
    by_cases hany : (p.row r).any (·.cell.isHeader) = true
    · rw [if_pos hany, if_pos hany, foldl_row_of_done]
      · simp
      · exact hany
      · rfl
    · have hmarked : (p.row r).filter (·.cell.isHeader) = [] := by simpa using hany
      have hplain : (p.row r).filter (!·.cell.isHeader) = p.row r := by simpa using hany
      rw [if_neg hany, if_neg hany, hmarked, hplain, ih]
      · simp
      · exact Bool.eq_false_iff.2 hany
      · exact hdone

end Walk

theorem ofPayload_of_array {p : Payload} (hk : p.cell.kind = .array) : ofPayload p = ofRows p.grid := by
  rw [ofPayload, if_pos hk, Walk.foldl_row_of_not_seen rfl rfl]
  rfl

/-! ## The rows of an array -/

variable {rows : List (List Payload)}

/-- The first row that holds a marked cell is marked throughout. -/
def Uniform (rows : List (List Payload)) : Prop :=
  ∀ row, rows.find? (·.any (·.cell.isHeader)) = some row → ∀ q ∈ row, q.cell.isHeader

instance : Decidable (Uniform rows) :=
  inferInstanceAs (Decidable (∀ row ∈ rows.find? (·.any (·.cell.isHeader)), ∀ q ∈ row, q.cell.isHeader))

/-- A row that is marked throughout leaves no cell to the body. -/
theorem filter_unmarked_eq_nil {row : List Payload} (hall : ∀ q ∈ row, q.cell.isHeader) :
    row.filter (!·.cell.isHeader) = [] := by
  rw [List.filter_eq_nil_iff]
  intro q hq
  simp [hall q hq]

/-- Without a marked cell there is no header. -/
theorem ofRows_of_unmarked (h : ∀ row ∈ rows, row.any (·.cell.isHeader) = false) :
    ofRows rows = { header := [], body := rows.flatten.map Payload.display } := by
  induction rows with
  | nil => rfl
  | cons row rows ih =>
    obtain ⟨hrow, hrows⟩ := List.forall_mem_cons.1 h
    rw [ofRows, hrow, ih hrows, List.flatten_cons, List.map_append]
    rfl

/-- The first row with a marked cell is the header if it is marked throughout, and what is marked in
the rows below it does not matter. -/
theorem ofRows_append_cons {before after : List (List Payload)} {row : List Payload}
    (hbefore : ∀ row ∈ before, row.any (·.cell.isHeader) = false) (hany : row.any (·.cell.isHeader))
    (hall : ∀ q ∈ row, q.cell.isHeader) :
    ofRows (before ++ row :: after) =
      { header := row.map Payload.display, body := (before ++ after).flatten.map Payload.display } := by
  induction before with
  | nil =>
    have hheader : row.filter (·.cell.isHeader) = row := List.filter_eq_self.2 hall
    rw [List.nil_append, ofRows, if_pos hany, hheader, filter_unmarked_eq_nil hall]
    rfl
  | cons top before ih =>
    obtain ⟨htop, hbefore⟩ := List.forall_mem_cons.1 hbefore
    rw [List.cons_append, ofRows, htop, ih hbefore, List.cons_append, List.flatten_cons, List.map_append]
    rfl

theorem perm_ofRows (rows : List (List Payload)) :
    ((ofRows rows).header ++ (ofRows rows).body).Perm (rows.flatten.map Payload.display) := by
  induction rows with
  | nil => exact .nil
  | cons row rows ih =>
    rw [ofRows, List.flatten_cons, List.map_append]
    split
    · have hrow := (List.filter_append_perm (·.cell.isHeader) row).map Payload.display
      rw [List.map_append] at hrow
      rw [← List.append_assoc]
      exact hrow.append_right _
    -- The header of the rows below comes in front of this row.
    · refine List.Perm.trans ?_ (ih.append_left _)
      simp only [← List.append_assoc]
      exact List.perm_append_comm.append_right _

theorem length_header_le {n : Nat} (h : ∀ row ∈ rows, row.length ≤ n) : (ofRows rows).header.length ≤ n := by
  induction rows with
  | nil => exact Nat.zero_le n
  | cons row rows ih =>
    obtain ⟨hrow, hrows⟩ := List.forall_mem_cons.1 h
    rw [ofRows]
    split
    · rw [List.length_map]
      exact Nat.le_trans (List.length_filter_le _ _) hrow
    · exact ih hrows

theorem length_flatten_le {n : Nat} (h : ∀ row ∈ rows, row.length ≤ n) : rows.flatten.length ≤ rows.length * n := by
  induction rows with
  | nil => simp
  | cons row rows ih =>
    obtain ⟨hrow, hrows⟩ := List.forall_mem_cons.1 h
    have := ih hrows
    rw [List.flatten_cons, List.length_append, List.length_cons, Nat.succ_mul]
    omega

theorem length_body_le {n : Nat} (h : ∀ row ∈ rows, row.length ≤ n) : (ofRows rows).body.length ≤ rows.length * n := by
  have hlen := (perm_ofRows rows).length_eq
  have := length_flatten_le h
  rw [List.length_append, List.length_map] at hlen
  omega

/-- Below a header that is marked throughout there is one row less. -/
theorem length_body_le_of_uniform {n : Nat} (h : ∀ row ∈ rows, row.length ≤ n) (hu : Uniform rows)
    (hh : (ofRows rows).header ≠ []) : (ofRows rows).body.length ≤ (rows.length - 1) * n := by
  induction rows with
  | nil => exact absurd rfl hh
  | cons row rows ih =>
    obtain ⟨hrow, hrows⟩ := List.forall_mem_cons.1 h
    rw [ofRows] at hh ⊢
    by_cases hany : row.any (·.cell.isHeader) = true
    · have hall : ∀ q ∈ row, q.cell.isHeader := hu row (by simp [hany])
      rw [if_pos hany]
      simp only [filter_unmarked_eq_nil hall, List.map_nil, List.nil_append, List.length_map, List.length_cons, Nat.add_sub_cancel]
      exact length_flatten_le hrows
    · rw [if_neg hany] at hh ⊢
      have hrest : Uniform rows := fun r hr => hu r (by simp [hany, hr])
      have := ih hrows hrest hh
      -- There is a row with the header below this one.
      have hpos : rows ≠ [] := by
        rintro rfl
        exact hh rfl
      obtain ⟨k, hk⟩ := Nat.exists_eq_succ_of_ne_zero (mt List.length_eq_zero_iff.1 hpos)
      simp only [hk, Nat.succ_sub_one, List.length_append, List.length_map, List.length_cons, Nat.succ_mul] at this ⊢
      omega

end Results

end CellFormat
