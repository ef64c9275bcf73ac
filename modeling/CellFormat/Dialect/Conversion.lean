import CellFormat.Dialect.Segments
/-!
# Conversion between dialects

A pattern is read in one dialect and written in another. Literals keep their
text and are quoted anew; a token without a spelling in the other dialect is
dropped. Tokens are written back to back, so the other dialect may read them
differently where they touch.
-/

namespace CellFormat.Dialect

/-- A segment as it is written in a pattern. -/
def write (d : Dialect) : Segment → Text
  | .literal t => d.escapeLiteral t
  | .token k => d.spell k

/-- A pattern of one dialect as a pattern of another. Within one dialect it stays as it is. -/
def convert (source dest : Dialect) (pattern : Text) : Text :=
  if source.name = dest.name then pattern else (source.segments pattern).flatMap dest.write

end CellFormat.Dialect
