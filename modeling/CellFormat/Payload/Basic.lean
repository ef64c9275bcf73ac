import CellFormat.Binary64.Basic
/-!
# Payloads

A payload is one typed cell, or an array of cells laid out row by row. Cells of
an array are payloads themselves. A cell holds all members whatever its kind, as
they come with it; the kind decides which of them show.
-/

namespace CellFormat

/-- The kind of a cell. -/
inductive CellKind where
  | text
  | json
  | date
  | number
  | link
  | array
  | error
  | confirmWrite
  | confirmWriteInProduction
  /-- Any kind that is not known here; it shows as nothing. -/
  | unknown
  deriving DecidableEq, Repr

namespace CellKind

/-- The tag of a kind. -/
def tag : CellKind → Text
  | text => "TEXT".toList
  | json => "JSON".toList
  | date => "DATE".toList
  | number => "NUMBER".toList
  | link => "LINK".toList
  | array => "ARRAY".toList
  | error => "ERROR".toList
  | confirmWrite => "CONFIRM-WRITE-DATASET".toList
  | confirmWriteInProduction => "CONFIRM-WRITE-DATASET-PRO".toList
  | unknown => "UNKNOWN".toList

/-- The kinds that have a tag of their own. -/
def known : List CellKind :=
  [text, json, date, number, link, array, error, confirmWrite, confirmWriteInProduction]

/-- The kind with a tag. -/
def ofTag (t : Text) : CellKind := (known.find? fun k => k.tag = t).getD unknown

end CellKind

/-- How a date or a number is displayed: a datepicker pattern or a stored number pattern,
and the code of a locale. -/
structure DisplayFormat where
  pattern : Text
  locale : Option Text
  deriving DecidableEq, Repr

/-- A text that takes the place of a cell's own. -/
structure HeaderOverride where
  header : Text
  deriving DecidableEq, Repr

/-- All of a cell but the cells inside of it. -/
structure Cell where
  kind : CellKind := .unknown
  text : Option Text := none
  number : Option Binary64 := none
  uri : Option Text := none
  displayFormat : Option DisplayFormat := none
  headerOverrides : Option (List HeaderOverride) := none
  /-- The cell belongs to the header row. -/
  isHeader : Bool := false
  /-- The size of an array. -/
  rows : UInt64 := 0
  cols : UInt64 := 0
  deriving DecidableEq

/-- A cell with the cells inside of it, row by row. -/
structure Payload where
  cell : Cell
  cells : List Payload

namespace Payload

mutual

/-- Payloads are equal if their own cells and the cells inside of them are. -/
def decEq : (p q : Payload) → Decidable (p = q)
  | ⟨a, ps⟩, ⟨b, qs⟩ =>
    match instDecidableEqCell a b, decEqList ps qs with
    | isTrue ha, isTrue hps => isTrue (by rw [ha, hps])
    | isFalse ha, _ => isFalse (by simp [ha])
    | _, isFalse hps => isFalse (by simp [hps])

/-- The same, cell by cell. -/
def decEqList : (ps qs : List Payload) → Decidable (ps = qs)
  | [], [] => isTrue rfl
  | [], _ :: _ => isFalse (by simp)
  | _ :: _, [] => isFalse (by simp)
  | p :: ps, q :: qs =>
    match decEq p q, decEqList ps qs with
    | isTrue hp, isTrue hps => isTrue (by rw [hp, hps])
    | isFalse hp, _ => isFalse (by simp [hp])
    | _, isFalse hps => isFalse (by simp [hps])

end

instance : DecidableEq Payload := decEq

/-- A payload without any members. -/
def empty : Payload := ⟨{}, []⟩

/-- A text. -/
def ofText (text : Text) : Payload := ⟨{ kind := .text, text := some text }, []⟩

/-- A number. -/
def ofNumber (number : Binary64) (displayFormat : Option DisplayFormat) : Payload :=
  ⟨{ kind := .number, number := some number, displayFormat }, []⟩

/-- A date, as a timestamp in seconds or milliseconds. -/
def ofDate (timestamp : Binary64) (displayFormat : Option DisplayFormat) : Payload :=
  ⟨{ kind := .date, number := some timestamp, displayFormat }, []⟩

/-- A link. -/
def ofLink (text uri : Text) : Payload :=
  ⟨{ kind := .link, text := some text, uri := some uri }, []⟩

/-- An array of cells, row by row. -/
def ofCells (rows cols : UInt64) (cells : List Payload) : Payload :=
  ⟨{ kind := .array, rows, cols }, cells⟩

/-- The payload as part of the header row. -/
def asHeader (p : Payload) : Payload := { p with cell := { p.cell with isHeader := true } }

/-- The cell of an array in a row and a column. -/
def at? (p : Payload) (row col : Nat) : Option Payload :=
  p.cells[p.cell.cols.toNat * row + col]?

end Payload

end CellFormat
