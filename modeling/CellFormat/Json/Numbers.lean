import CellFormat.Decimal.Basic
import CellFormat.Json.Fault
/-!
# Numbers in JSON text

A number is first taken apart into its digits and then valued: as an integer if
it is written as one and fits into 64 bits, else as a binary64 number.
-/

namespace CellFormat.Json

/-! ## Taking a number apart -/

/-- A power of ten: whether it is negative, and its digits. -/
structure Power where
  negative : Bool
  digits : Text
  deriving DecidableEq, Repr

/-- The parts of a number. A number without a point has no fraction digits. -/
structure NumberParts where
  negative : Bool
  whole : Text
  fraction : Text
  power : Option Power
  deriving DecidableEq, Repr

/-- The digits at the start of the text, and the text after them. -/
def spanDigits (rest : Text) : Text × Text :=
  (rest.takeWhile Char.isDigit, rest.dropWhile Char.isDigit)

/-- The digits before the point. A zero stands alone. `atEnd` is the fault of a text that
ends before them. -/
def readWhole (atEnd : Fault) : Text → Except Failure (Text × Text)
  | [] => failAt [] atEnd
  | '0' :: rest =>
    if (rest.takeWhile Char.isDigit).isEmpty then .ok (['0'], rest)
    else failNext rest .invalidNumber
  | rest =>
    if (rest.takeWhile Char.isDigit).isEmpty then failNext rest .invalidNumber
    else .ok (spanDigits rest)

/-- The digits after the point, at least one; nothing if there is no point. -/
def readFraction (atEnd : Fault) : Text → Except Failure (Text × Text)
  | '.' :: rest =>
    if (rest.takeWhile Char.isDigit).isEmpty then
      failNext rest (if rest.isEmpty then atEnd else .invalidNumber)
    else .ok (spanDigits rest)
  | rest => .ok ([], rest)

/-- The digits of a power of ten, at least one. -/
def readPowerDigits (atEnd : Fault) (negative : Bool) (rest : Text) :
    Except Failure (Power × Text) :=
  if (rest.takeWhile Char.isDigit).isEmpty then
    failNext rest (if rest.isEmpty then atEnd else .invalidNumber)
  else .ok ({ negative, digits := (spanDigits rest).1 }, (spanDigits rest).2)

/-- The sign and the digits of a power of ten, from after its letter. -/
def readSignedPower (atEnd : Fault) : Text → Except Failure (Power × Text)
  | '+' :: rest => readPowerDigits atEnd false rest
  | '-' :: rest => readPowerDigits atEnd true rest
  | rest => readPowerDigits atEnd false rest

/-- The power of ten after an `e`, if there is one. -/
def readPower (atEnd : Fault) : Text → Except Failure (Option Power × Text)
  | [] => .ok (none, [])
  | c :: rest =>
    if c = 'e' ∨ c = 'E' then do
      let (power, rest) ← readSignedPower atEnd rest
      .ok (some power, rest)
    else .ok (none, c :: rest)

/-- The parts of a number, from after its sign. -/
def readUnsigned (atEnd : Fault) (negative : Bool) (rest : Text) :
    Except Failure (NumberParts × Text) := do
  let (whole, rest) ← readWhole atEnd rest
  let (fraction, rest) ← readFraction atEnd rest
  let (power, rest) ← readPower atEnd rest
  .ok ({ negative, whole, fraction, power }, rest)

/-- The parts of a number. -/
def readParts (atEnd : Fault) : Text → Except Failure (NumberParts × Text)
  | '-' :: rest => readUnsigned atEnd true rest
  | rest => readUnsigned atEnd false rest

/-- The text after a number; every fault of a skipped number is the same one. -/
def skipNumber (rest : Text) : Except Failure Text := do
  let (_, rest) ← readParts .invalidNumber rest
  .ok rest

/-! ## Its value -/

/-- The value of a number. -/
inductive Number where
  /-- An integer from 0 up to 2^64 - 1. -/
  | natural (n : Nat)
  /-- An integer from -2^63 up to -1, as its magnitude. -/
  | negated (n : Nat)
  /-- Anything else. -/
  | float (value : Binary64)
  deriving DecidableEq

namespace NumberParts

/-- The digits without a point. -/
def digits (n : NumberParts) : Nat := Decimal.natOfDigits (n.whole ++ n.fraction)

/-- The power of ten as an integer. -/
def exponent (n : NumberParts) : Int :=
  match n.power with
  | none => 0
  | some p =>
    let n : Int := Decimal.natOfDigits p.digits
    if p.negative then -n else n

/-- The binary64 number nearest to the exact value. -/
def toBinary64 (n : NumberParts) : Binary64 :=
  Decimal.toBinary64 n.negative { digits := n.digits, exponent := n.exponent - n.fraction.length }

/-- The value of a number without a point and a power of ten, if it is an integer of 64
bits. Negative zero is not. -/
def integer? (n : NumberParts) : Option Number :=
  if n.fraction ≠ [] ∨ n.power.isSome then none
  else if n.negative then
    if 0 < n.digits ∧ n.digits ≤ 0x8000000000000000 then some (.negated n.digits) else none
  else if n.digits ≤ 0xFFFFFFFFFFFFFFFF then some (.natural n.digits) else none

end NumberParts

/-- The digits after the first one that takes a power of ten above 2^31 - 1. -/
def afterExcess? (n : Nat) : Text → Option Text
  | [] => none
  | c :: t =>
    let n := 10 * n + (c.toNat - '0'.toNat)
    if 0x7FFFFFFF < n then some t else afterExcess? n t

/-- The digits of the power of ten that are not needed to see that a number is too large. -/
def NumberParts.excess? (n : NumberParts) : Option Text :=
  match n.power with
  | none => none
  | some p => if p.negative || n.digits = 0 then none else afterExcess? 0 p.digits

/-- A number and the text after it. A number that is too large is a fault at its end, or
at the digit of its power of ten that makes it so beyond 2^31 - 1. -/
def readNumber (rest : Text) : Except Failure (Number × Text) := do
  let (parts, rest) ← readParts .endInValue rest
  match parts.integer? with
  | some n => .ok (n, rest)
  | none =>
    match parts.excess? with
    | some unread => failAt (unread ++ rest) .numberTooLarge
    | none =>
      match parts.toBinary64 with
      | .infinite _ => failAt rest .numberTooLarge
      | value => .ok (.float value, rest)

namespace Number

/-- The number as binary64. -/
def toBinary64 : Number → Binary64
  | natural n => .ofRatio false n 1
  | negated n => .ofRatio true n 1
  | float value => value

end Number

end CellFormat.Json
