import CellFormat.Decimal.Layout
import CellFormat.Json.Strings
import CellFormat.Payload.Basic
/-!
# Payloads as JSON text

The members of a payload in a fixed order, without blanks. Members that may be
absent are left out if they are, and so are cells if there are none.
-/

namespace CellFormat

namespace Json

/-- The text of an object with the given members, names and values. -/
def writeObject (members : List (Text × Text)) : Text :=
  '{' :: List.intercalate [','] (members.map fun (name, value) => writeString name ++ ':' :: value)
    ++ ['}']

/-- The text of a list with the given elements. -/
def writeList (elements : List Text) : Text :=
  '[' :: List.intercalate [','] elements ++ [']']

/-- A truth value. -/
def writeBool (b : Bool) : Text := if b then "true".toList else "false".toList

/-- A member that is left out if it is absent. -/
def optionalMember {α : Type} (name : Text) (write : α → Text) : Option α → List (Text × Text)
  | none => []
  | some a => [(name, write a)]

end Json

open Json

/-- The text of a display format. -/
def DisplayFormat.write (f : DisplayFormat) : Text :=
  writeObject <|
    ("fPattern".toList, writeString f.pattern) ::
      optionalMember "fLocale".toList writeString f.locale

/-- The text of a header override. -/
def HeaderOverride.write (h : HeaderOverride) : Text :=
  writeObject [("fHeader".toList, writeString h.header)]

/-- The members of a cell. -/
def Cell.members (c : Cell) : List (Text × Text) :=
  [("fType".toList, writeString c.kind.tag)]
    ++ optionalMember "fStr".toList writeString c.text
    ++ optionalMember "fNum".toList NumberLayout.interchange.write c.number
    ++ optionalMember "fUri".toList writeString c.uri
    ++ optionalMember "fDisplayFormat".toList DisplayFormat.write c.displayFormat
    ++ optionalMember "fHeaders".toList (fun hs => writeList (hs.map HeaderOverride.write))
        c.headerOverrides
    ++ [("fHeader".toList, writeBool c.isHeader),
        ("fRows".toList, Text.ofNat c.rows.toNat),
        ("fCols".toList, Text.ofNat c.cols.toNat)]

namespace Payload

mutual

/-- The text of a payload. -/
def write : Payload → Text
  | ⟨cell, cells⟩ =>
    let elements := writeCells cells
    writeObject <|
      cell.members ++ if elements = [] then [] else [("fArray".toList, writeList elements)]

/-- The texts of cells. -/
def writeCells : List Payload → List Text
  | [] => []
  | p :: ps => write p :: writeCells ps

end

end Payload

end CellFormat
