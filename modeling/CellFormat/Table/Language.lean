import CellFormat.Text
/-!
# Languages of messages

Some cells show a fixed message, in English or in Spanish.
-/

namespace CellFormat

/-- A language that messages are available in. -/
inductive Language where
  | english
  | spanish
  deriving DecidableEq, Repr

namespace Language

/-- The language of a code such as `es` or `es_AR`. What is not Spanish is English. -/
def ofCode (code : Text) : Language :=
  let primary := code.takeWhile fun c => c ≠ '_' && c ≠ '-'
  if Text.equalIgnoringCase primary "es".toList then spanish else english

/-- The wording of this language. -/
def pick (l : Language) (inEnglish inSpanish : Text) : Text :=
  match l with
  | english => inEnglish
  | spanish => inSpanish

end Language

end CellFormat
