import CellFormat.Dialect.Basic
import CellFormat.Text.Quoted
/-!
# Descriptions of dialects

The data of a dialect in one line, for people who look for a mistake in it. How
it quotes literals is no data and is left out.
-/

namespace CellFormat.Dialect

/-- The name, all spellings in the order of the tokens, and the reserved characters. -/
def describe (d : Dialect) : Text :=
  let spellings := Token.all.map fun k => Quoted.write (d.spell k)
  "DateDialect \x7b name: ".toList ++ Quoted.write d.name
    ++ ", spellings: [".toList ++ List.intercalate ", ".toList spellings
    ++ "], reserved: ".toList ++ Quoted.write d.reserved ++ ", .. \x7d".toList

end CellFormat.Dialect
