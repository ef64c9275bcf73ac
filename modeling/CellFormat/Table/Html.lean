import CellFormat.Table.Language
import CellFormat.Table.Results
/-!
# Tables

A payload as an HTML table. An array is laid out row by row with a head for its
header, which then counts as one of its rows; any other payload fills a table of
one cell.
-/

namespace CellFormat

namespace Table

/-- A table of a style. -/
def styled (style : Text) (content : Text) : Text :=
  Markup.element "table".toList [("class".toList, style)] content

/-- A table of a style with one cell. -/
def single (style : Text) (content : Text) : Text :=
  styled style <|
    Markup.element "tr".toList [] (Markup.element "td".toList [] content)

/-! ## Arrays -/

/-- A row of `cols` cells out of all cells. Where there are no more cells, the row is filled
with empty ones. -/
def row (cells : List Text) (cols row : Nat) (isHeader : Bool) : Text :=
  let name := if isHeader then "th".toList else "td".toList
  Markup.element "tr".toList [] <|
    (List.range cols).flatMap fun col =>
      Markup.element name [] (cells.getD (row * cols + col) [])

/-- The table of an array with `rows` rows, one of which is the header if there is one. -/
def ofResults (results : Results) (cols rows : Nat) : Text :=
  let head :=
    if results.header = [] then []
    else Markup.element "thead".toList [] (row results.header cols 0 true)
  let bodyRows := if results.header = [] then rows else rows - 1
  styled "array".toList <|
    head ++ (List.range bodyRows).flatMap fun r =>
      Markup.element "tbody".toList [] (row results.body cols r false)

/-! ## Messages -/

/-- The button that runs a request again. -/
def retryButton (title label : Text) : Text :=
  Markup.element "a".toList [("id".toList, "id_retryButton".toList), ("title".toList, title)] label

/-- The message for data that could not be had. -/
def errorMessage (l : Language) : Text :=
  ' ' :: l.pick "No data found".toList "No se encontraron datos".toList ++ ". ".toList
    ++ Markup.element "span".toList []
        (l.pick "Please".toList "Por favor".toList ++ ' ' ::
          retryButton (l.pick "Try Again".toList "Inténtalo Nuevamente".toList)
            (l.pick "try again".toList "inténtalo Nuevamente".toList) ++ ['.'])

/-- The question before a request that changes data. -/
def confirmMessage (l : Language) : Text :=
  let proceed := l.pick "Continue anyway".toList "Continuar de todas formas".toList
  ' ' :: l.pick "You are about to run an origin that can affect the data".toList
      "Usted se encuentra por ejecutar un origen que puede cambiar datos".toList
    ++ ". ".toList ++ Markup.element "span".toList [] (retryButton proceed proceed)

/-- The message for a request that changes data and cannot be previewed. -/
def noPreviewMessage (l : Language) : Text :=
  ' ' :: l.pick
    ("Write-type Data Views that belong to the production environment cannot be previewed "
      ++ "in the workspace.").toList
    ("Las vistas de tipo escritura que pertenecen al entorno de producción no se pueden "
      ++ "previsualizar en el espacio de trabajo.").toList

/-- The table of one cell. Errors and questions have a fixed message in place of the text;
arrays and unknown kinds have no such table. -/
def ofText (text : Text) (kind : CellKind) (l : Language) : Text :=
  match kind with
  | .text | .json | .link => single "text".toList text
  | .date | .number => single "number".toList text
  | .error => single "null".toList (errorMessage l)
  | .confirmWrite => single "text".toList (confirmMessage l)
  | .confirmWriteInProduction => single "text".toList (noPreviewMessage l)
  | .array | .unknown => []

/-- The table of a payload. -/
def ofPayload (p : Payload) (l : Language) : Text :=
  if p.cell.kind = .array then ofResults (.ofPayload p) p.cell.cols.toNat p.cell.rows.toNat
  else ofText p.display p.cell.kind l

end Table

end CellFormat
