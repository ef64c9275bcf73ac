import CellFormat.Calendar.Timestamp
import CellFormat.Number.Numeral
import CellFormat.Number.StoredPattern
import CellFormat.Payload.Basic
import CellFormat.Text.Markup
/-!
# What a cell shows

The text of a cell by its kind. Texts lose their tags, dates and numbers follow
their display format, and a date that cannot be shown is shown as a number.
-/

namespace CellFormat

namespace Display

/-- A text without its tags. A dash alone becomes a blank that keeps its place. -/
def text (t : Text) : Text :=
  Markup.stripTags (if t = ['-'] then "&nbsp;".toList else t)

/-- A number without a display format. -/
def plain (n : Binary64) : Text := NumberLayout.display.write n

/-- A timestamp by a datepicker pattern. -/
def timestamp (n : Binary64) (pattern : Text) : Text :=
  match Timestamp.millis n with
  | .error _ => plain n
  | .ok millis =>
    match Timestamp.format millis pattern with
    | .error _ => plain n
    | .ok shown => shown

/-- The numeral of a display format. An empty pattern asks for grouped digits. -/
def numeral (f : DisplayFormat) : Numeral :=
  let pattern := StoredPattern.toNumeral f.pattern
  .ofText (if pattern = [] then "0,0".toList else pattern)

/-- The locale of a display format. -/
def locale (f : DisplayFormat) : NumberLocale :=
  .lookup (NumberLocale.numeralCode (f.locale.getD "us".toList))

/-- A number by a display format. -/
def number (n : Binary64) (f : DisplayFormat) : Text :=
  (numeral f).write (locale f) n

/-- A link that opens in a place of its own. -/
def link (label uri : Text) : Text :=
  Markup.element "a".toList
    [("target".toList, "_blank".toList), ("href".toList, uri), ("rel".toList, "nofollow".toList),
     ("title".toList, label)]
    label

end Display

namespace Cell

/-- The text to show: the first header override, else the cell's own text. -/
def shownText (c : Cell) : Text :=
  match c.headerOverrides with
  | some (h :: _) => h.header
  | _ => c.text.getD []

/-- What a cell shows. Kinds other than texts, dates, numbers and links show nothing. -/
def display (c : Cell) : Text :=
  match c.kind with
  | .text | .json => Display.text c.shownText
  | .date =>
    match c.number, c.displayFormat with
    | none, _ => []
    | some n, some f => Display.timestamp n f.pattern
    | some n, none => Display.plain n
  | .number =>
    match c.number, c.displayFormat with
    | none, _ => []
    | some n, some f => Display.number n f
    | some n, none => Display.plain n
  | .link => Display.link (c.text.getD []) (c.uri.getD [])
  | _ => []

end Cell

end CellFormat
