import CellFormat.Table.Display
/-!
# Header and body

The cells of an array fall into a header and a body. The header are the cells
marked as such in the first row that has any; all other cells, marked ones in
later rows among them, are the body. Both are collected in one walk over the
places of the array, row by row.
-/

namespace CellFormat

/-- What the cells of a payload show, header and body apart. -/
structure Results where
  header : List Text
  body : List Text
  deriving DecidableEq, Repr

namespace Payload

/-- What a payload's own cell shows. -/
def display (p : Payload) : Text := p.cell.display

end Payload

namespace Results

/-- A walk over an array: what has been collected, whether a cell of the header has been seen, and whether
the row with the header is over. -/
structure Walk extends Results where
  headerSeen : Bool
  headerDone : Bool

namespace Walk

/-- Nothing has been collected. -/
def start : Walk := { header := [], body := [], headerSeen := false, headerDone := false }

/-- The next cell. A marked one belongs to the header unless the header is over. -/
def cell (w : Walk) (q : Payload) : Walk :=
  if q.cell.isHeader && !w.headerDone then { w with header := w.header ++ [q.display], headerSeen := true }
  else { w with body := w.body ++ [q.display] }

/-- The end of a row, which ends the header if any of it has been seen. -/
def endRow (w : Walk) : Walk := if w.headerSeen then { w with headerDone := true } else w

/-- The next row. Places that hold no cell are skipped. -/
def row (p : Payload) (w : Walk) (r : Nat) : Walk :=
  ((List.range p.cell.cols.toNat).foldl (fun w col => (p.at? r col).elim w w.cell) w).endRow

end Walk

/-- Header and body of a payload. What is no array has one body cell. -/
def ofPayload (p : Payload) : Results :=
  if p.cell.kind = .array then ((List.range p.cell.rows.toNat).foldl (Walk.row p) .start).toResults
  else { header := [], body := [p.display] }

end Results

end CellFormat
