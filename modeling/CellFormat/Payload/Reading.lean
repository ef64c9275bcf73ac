import CellFormat.Json.Records
import CellFormat.Payload.Basic
/-!
# Payloads from JSON text

The records a payload consists of, and the readers for them. At most 127
containers may be open at once; `room` is the number of those that may still be
opened.
-/

namespace CellFormat

open Json

/-! ## Kinds -/

/-- The tag of a kind as a string. -/
def CellKind.readTag (rest : Text) : Except Failure (CellKind × Text) := do
  let (tag, rest) ← readChars rest
  .ok (ofTag tag, rest)

/-- A kind as an object with its tag as the only key and no value, from after the brace. -/
def CellKind.readObject (rest : Text) : Except Failure (CellKind × Text) :=
  match skipBlanks rest with
  | [] => failNext [] .endInObject
  | '"' :: rest => do
    let (kind, rest) ← readTag rest
    let rest ← skipColon rest
    let (_, rest) ← readNull rest
    match skipBlanks rest with
    | [] => failAt [] .endInObject
    | '}' :: rest => .ok (kind, rest)
    | rest => failAt rest .expectedValue
  | '}' :: rest => failNext ('}' :: rest) .expectedValue
  | rest => failNext rest .keyIsNoString

/-- The kind of a cell: its tag, or an object with the tag as key. -/
def CellKind.read (room : Nat) (rest : Text) : Except Failure (CellKind × Text) :=
  match skipBlanks rest with
  | [] => failNext [] .endInValue
  | '"' :: rest => readTag rest
  | '{' :: rest =>
    if room = 0 then failNext ('{' :: rest) .nestedTooDeep else readObject rest
  | rest => failNext rest .expectedValue

/-! ## Display formats and header overrides -/

/-- What has been read, as a change. -/
def reading {α β : Type} (set : β → α → α) (r : Except Failure (β × Text)) :
    Except Failure ((α → α) × Text) := do
  let (b, rest) ← r
  .ok (set b, rest)

namespace DisplayFormat

/-- The members of a display format. -/
inductive Field where
  | pattern
  | locale
  deriving DecidableEq, Repr

/-- Their names and readers. -/
def shape : RecordShape Field DisplayFormat where
  fields := [("fPattern".toList, .pattern), ("fLocale".toList, .locale)]
  read
    | .pattern, rest => reading (fun t f => { f with pattern := t }) (readString rest)
    | .locale, rest => reading (fun t f => { f with locale := t }) (readOptional readString rest)

/-- A display format. -/
def read (room : Nat) : Text → Except Failure (DisplayFormat × Text) :=
  readRecord "struct DisplayFormat".toList { pattern := [], locale := none }
    (if room = 0 then none else some shape)

end DisplayFormat

namespace HeaderOverride

/-- The member of a header override. -/
inductive Field where
  | header
  deriving DecidableEq, Repr

/-- Its name and reader. -/
def shape : RecordShape Field HeaderOverride where
  fields := [("fHeader".toList, .header)]
  read
    | .header, rest => reading (fun t h => { h with header := t }) (readString rest)

/-- A header override. -/
def read (room : Nat) : Text → Except Failure (HeaderOverride × Text) :=
  readRecord "struct HeaderOverride".toList { header := [] }
    (if room = 0 then none else some shape)

/-- A list of header overrides. -/
def readAll : (room : Nat) → Text → Except Failure (List HeaderOverride × Text)
  | 0 => readList none
  | room + 1 => readList (some (read room))

end HeaderOverride

/-! ## Payloads -/

namespace Payload

/-- The members of a payload. -/
inductive Field where
  | kind
  | text
  | number
  | uri
  | displayFormat
  | headerOverrides
  | isHeader
  | rows
  | cols
  | cells
  deriving DecidableEq, Repr

/-- Changes the own cell of a payload. -/
def updateCell (set : Cell → Cell) (p : Payload) : Payload := { p with cell := set p.cell }

/-- Their names and readers, given the reader of the cells inside of the payload. -/
def shape (room : Nat) (readCells : Text → Except Failure (List Payload × Text)) :
    RecordShape Field Payload where
  fields :=
    [("fType".toList, .kind), ("fStr".toList, .text), ("fNum".toList, .number),
     ("fUri".toList, .uri), ("fDisplayFormat".toList, .displayFormat),
     ("fHeaders".toList, .headerOverrides), ("fHeader".toList, .isHeader),
     ("fRows".toList, .rows), ("fCols".toList, .cols), ("fArray".toList, .cells)]
  read
    | .kind, rest =>
      reading (fun k => updateCell fun c => { c with kind := k }) (CellKind.read room rest)
    | .text, rest =>
      reading (fun t => updateCell fun c => { c with text := t }) (readOptional readString rest)
    | .number, rest =>
      reading (fun n => updateCell fun c => { c with number := n }) (readOptional readFloat rest)
    | .uri, rest =>
      reading (fun t => updateCell fun c => { c with uri := t }) (readOptional readString rest)
    | .displayFormat, rest =>
      reading (fun f => updateCell fun c => { c with displayFormat := f })
        (readOptional (DisplayFormat.read room) rest)
    | .headerOverrides, rest =>
      reading (fun hs => updateCell fun c => { c with headerOverrides := hs })
        (readOptional (HeaderOverride.readAll room) rest)
    | .isHeader, rest =>
      reading (fun b => updateCell fun c => { c with isHeader := b }) (readBool rest)
    | .rows, rest =>
      reading (fun n => updateCell fun c => { c with rows := n }) (readNatural rest)
    | .cols, rest =>
      reading (fun n => updateCell fun c => { c with cols := n }) (readNatural rest)
    | .cells, rest => reading (fun cells p => { p with cells }) (readCells rest)

/-- The name of the record in failures. -/
def title : Text := "struct ResultPayload".toList

mutual

/-- A payload. -/
def read : (room : Nat) → Text → Except Failure (Payload × Text)
  | 0, rest => readRecord title empty (none (α := RecordShape Field Payload)) rest
  | room + 1, rest => readRecord title empty (some (shape room (readCells room))) rest

/-- The cells inside of a payload. -/
def readCells : (room : Nat) → Text → Except Failure (List Payload × Text)
  | 0, rest => readList none rest
  | room + 1, rest => readList (some (read room)) rest

end

/-- The number of containers that may be open at once. -/
def maxOpen : Nat := 127

/-- Why a text is no payload. -/
def failureMessage (text : Text) (f : Failure) : Text :=
  "malformed result payload: ".toList ++ f.message text

/-- The payload that a JSON text stands for. -/
def ofJson (text : Text) : Except Failure Payload := readDocument (read maxOpen) text

end Payload

end CellFormat
