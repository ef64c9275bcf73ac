import CellFormat.Decimal.Layout
import CellFormat.Json.Numbers
import CellFormat.Json.Strings
import CellFormat.Text.Quoted
/-!
# Reading values of a known type

Readers for the types that members have. Each skips the blanks before its value;
a value of another type is named in the failure.
-/

namespace CellFormat.Json

/-- A number as a failure names it. -/
def Number.describe : Number → Text
  | natural n => "integer `".toList ++ Text.ofNat n ++ "`".toList
  | negated n => "integer `-".toList ++ Text.ofNat n ++ "`".toList
  | float value =>
    "floating point `".toList ++ NumberLayout.interchange.write value ++ "`".toList

/-- The failure for a value of another type than `expected`. A value that is not even JSON
fails as such; lists and objects are not looked into. -/
def failWrongType {α : Type} (expected : Text) (rest : Text) : Except Failure α :=
  match rest with
  | 'n' :: rest => do
    let rest ← skipWord "ull".toList rest
    failAt rest (.wrongType "null".toList expected)
  | 't' :: rest => do
    let rest ← skipWord "rue".toList rest
    failAt rest (.wrongType "boolean `true`".toList expected)
  | 'f' :: rest => do
    let rest ← skipWord "alse".toList rest
    failAt rest (.wrongType "boolean `false`".toList expected)
  | '"' :: rest => do
    let (t, rest) ← readChars rest
    failAt rest (.wrongType ("string ".toList ++ Quoted.write t) expected)
  | '[' :: _ => failAt rest (.wrongType "sequence".toList expected)
  | '{' :: _ => failAt rest (.wrongType "map".toList expected)
  | c :: _ =>
    if c = '-' ∨ c.isDigit then do
      let (n, rest) ← readNumber rest
      failAt rest (.wrongType n.describe expected)
    else failNext rest .expectedValue
  | [] => failNext rest .expectedValue

/-- A string. -/
def readString (rest : Text) : Except Failure (Text × Text) :=
  match skipBlanks rest with
  | [] => failNext [] .endInValue
  | '"' :: rest => readChars rest
  | rest => failWrongType "a string".toList rest

/-- A truth value. -/
def readBool (rest : Text) : Except Failure (Bool × Text) :=
  match skipBlanks rest with
  | [] => failNext [] .endInValue
  | 't' :: rest => do
    let rest ← skipWord "rue".toList rest
    .ok (true, rest)
  | 'f' :: rest => do
    let rest ← skipWord "alse".toList rest
    .ok (false, rest)
  | rest => failWrongType "a boolean".toList rest

/-- The empty value. -/
def readNull (rest : Text) : Except Failure (Unit × Text) :=
  match skipBlanks rest with
  | [] => failNext [] .endInValue
  | 'n' :: rest => do
    let rest ← skipWord "ull".toList rest
    .ok ((), rest)
  | rest => failWrongType "unit".toList rest

/-- A binary64 number. Integers are rounded to it. -/
def readFloat (rest : Text) : Except Failure (Binary64 × Text) :=
  match skipBlanks rest with
  | [] => failNext [] .endInValue
  | c :: rest =>
    if c = '-' ∨ c.isDigit then do
      let (n, rest) ← readNumber (c :: rest)
      .ok (n.toBinary64, rest)
    else failWrongType "f64".toList (c :: rest)

/-- A natural number of 64 bits. -/
def readNatural (rest : Text) : Except Failure (UInt64 × Text) :=
  match skipBlanks rest with
  | [] => failNext [] .endInValue
  | c :: rest =>
    if c = '-' ∨ c.isDigit then do
      let (n, rest) ← readNumber (c :: rest)
      match n with
      | .natural n => .ok (UInt64.ofNat n, rest)
      | .negated _ => failAt rest (.wrongValue n.describe "usize".toList)
      | .float _ => failAt rest (.wrongType n.describe "usize".toList)
    else failWrongType "usize".toList (c :: rest)

/-- A value that may be absent, written as `null`. -/
def readOptional {α : Type} (read : Text → Except Failure (α × Text)) (rest : Text) :
    Except Failure (Option α × Text) :=
  match skipBlanks rest with
  | 'n' :: rest => do
    let rest ← skipWord "ull".toList rest
    .ok (none, rest)
  | rest => do
    let (a, rest) ← read rest
    .ok (some a, rest)

end CellFormat.Json
