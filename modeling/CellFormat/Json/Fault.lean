import CellFormat.Text
/-!
# Faults in JSON text

What can be wrong with a JSON text, and where. A reader works on the text that
is left to read, so a failure says how many bytes were left after the place it
stands for; `Failure.message` turns that into a line and a column of the whole
text.
-/

namespace CellFormat.Json

/-- What is wrong. -/
inductive Fault where
  | endInList
  | endInObject
  | endInString
  | endInValue
  | expectedColon
  | expectedCommaInList
  | expectedCommaInObject
  | expectedWord
  | expectedValue
  | invalidEscape
  | invalidNumber
  | numberTooLarge
  | loneSurrogate
  | brokenSurrogatePair
  | controlInString
  | keyIsNoString
  | trailingComma
  | trailingText
  | nestedTooDeep
  | duplicateField (name : Text)
  /-- A value of another kind than the one expected. -/
  | wrongType (found expected : Text)
  /-- A value of the right kind that is out of bounds. -/
  | wrongValue (found expected : Text)
  deriving DecidableEq, Repr

/-- The wording of a fault. -/
def Fault.message : Fault → Text
  | endInList => "EOF while parsing a list".toList
  | endInObject => "EOF while parsing an object".toList
  | endInString => "EOF while parsing a string".toList
  | endInValue => "EOF while parsing a value".toList
  | expectedColon => "expected `:`".toList
  | expectedCommaInList => "expected `,` or `]`".toList
  | expectedCommaInObject => "expected `,` or `\x7d`".toList
  | expectedWord => "expected ident".toList
  | expectedValue => "expected value".toList
  | invalidEscape => "invalid escape".toList
  | invalidNumber => "invalid number".toList
  | numberTooLarge => "number out of range".toList
  | loneSurrogate => "lone leading surrogate in hex escape".toList
  | brokenSurrogatePair => "unexpected end of hex escape".toList
  | controlInString =>
    "control character (\\u0000-\\u001F) found while parsing a string".toList
  | keyIsNoString => "key must be a string".toList
  | trailingComma => "trailing comma".toList
  | trailingText => "trailing characters".toList
  | nestedTooDeep => "recursion limit exceeded".toList
  | duplicateField name => "duplicate field `".toList ++ name ++ "`".toList
  | wrongType found expected =>
    "invalid type: ".toList ++ found ++ ", expected ".toList ++ expected
  | wrongValue found expected =>
    "invalid value: ".toList ++ found ++ ", expected ".toList ++ expected

/-- A fault, and the number of bytes after the place of it. -/
structure Failure where
  fault : Fault
  left : Nat
  deriving DecidableEq, Repr

/-- The line of a byte position, counted from one, and its distance from the start of that
line. -/
def lineAndColumn (text : Text) (position : Nat) : Nat × Nat :=
  go text 1 0 0
where
  /-- Walks over the characters before the position. -/
  go : Text → (line lineStart here : Nat) → Nat × Nat
    | [], line, lineStart, _ => (line, position - lineStart)
    | c :: t, line, lineStart, here =>
      if position ≤ here then (line, position - lineStart)
      else if c = '\n' then go t (line + 1) (here + 1) (here + 1)
      else go t line lineStart (here + c.utf8Size)

/-- The wording of a failure in a text, with its place. -/
def Failure.message (text : Text) (f : Failure) : Text :=
  let (line, column) := lineAndColumn text (text.bytes - f.left)
  f.fault.message ++ " at line ".toList ++ Text.ofNat line ++ " column ".toList
    ++ Text.ofNat column

/-! ## Steps of readers -/

/-- Fails at the start of the text that is left. -/
def failAt {α : Type} (rest : Text) (fault : Fault) : Except Failure α :=
  .error { fault, left := rest.bytes }

/-- Fails at the next byte of the text that is left, which counts as read. -/
def failNext {α : Type} (rest : Text) (fault : Fault) : Except Failure α :=
  .error { fault, left := rest.bytes - 1 }

/-- The text after the blanks at its start. -/
def skipBlanks (rest : Text) : Text :=
  rest.dropWhile fun c => c = ' ' || c = '\n' || c = '\t' || c = '\r'

/-- The text after the word that has to stand at its start. -/
def skipWord : (word rest : Text) → Except Failure Text
  | [], rest => .ok rest
  | _ :: _, [] => failAt [] .endInValue
  | w :: word, c :: rest =>
    if c = w then skipWord word rest else failNext (c :: rest) .expectedWord

end CellFormat.Json
