import CellFormat.Text.Printable
/-!
# Quoted text

Text in quotes as messages show it: with escapes for quotes, backslashes and
the characters that would not show by themselves.
-/

namespace CellFormat.Quoted

/-- A character inside the quotes. -/
def writeChar (c : Char) : Text :=
  if c = '"' then ['\\', '"']
  else if c = '\\' then ['\\', '\\']
  else if c = '\n' then ['\\', 'n']
  else if c = '\r' then ['\\', 'r']
  else if c = '\t' then ['\\', 't']
  else if c = '\x00' then ['\\', '0']
  else if isPrintable c then [c]
  else "\\u\x7b".toList ++ Nat.toDigits 16 c.toNat ++ "\x7d".toList

/-- A text in its quotes. -/
def write (t : Text) : Text := '"' :: t.flatMap writeChar ++ ['"']

end CellFormat.Quoted
