import CellFormat.Json.Numbers
import CellFormat.Json.Strings
/-!
# Values that are passed over

The value of a member that nobody asks for has to be JSON, but it is not looked
at: strings are checked for their shape only, and nesting is not limited.
-/

namespace CellFormat.Json

/-- The text after the colon that follows a key. -/
def skipColon (rest : Text) : Except Failure Text :=
  match skipBlanks rest with
  | [] => failNext [] .endInObject
  | ':' :: rest => .ok rest
  | rest => failNext rest .expectedColon

mutual

/-- The text after a value. `fuel` bounds the steps. -/
def skipValueWithin : (fuel : Nat) → Text → Except Failure Text
  | 0, rest => failAt rest .nestedTooDeep
  | fuel + 1, rest =>
    match skipBlanks rest with
    | [] => failNext [] .endInValue
    | 'n' :: rest => skipWord "ull".toList rest
    | 't' :: rest => skipWord "rue".toList rest
    | 'f' :: rest => skipWord "alse".toList rest
    | '"' :: rest => skipChars rest
    | '[' :: rest => skipElementsWithin fuel true rest
    | '{' :: rest => skipMembersWithin fuel true rest
    | c :: rest =>
      if c = '-' ∨ c.isDigit then skipNumber (c :: rest) else failNext (c :: rest) .expectedValue

/-- The text after a list, from after its bracket or one of its elements. -/
def skipElementsWithin : (fuel : Nat) → (first : Bool) → Text → Except Failure Text
  | 0, _, rest => failAt rest .nestedTooDeep
  | fuel + 1, first, rest =>
    match skipBlanks rest with
    | [] => failNext [] .endInList
    | ']' :: rest => .ok rest
    | c :: rest =>
      if first then do
        let rest ← skipValueWithin fuel (c :: rest)
        skipElementsWithin fuel false rest
      else if c = ',' then do
        let rest ← skipValueWithin fuel rest
        skipElementsWithin fuel false rest
      else failNext (c :: rest) .expectedCommaInList

/-- The text after an object, from after its brace or one of its members. -/
def skipMembersWithin : (fuel : Nat) → (first : Bool) → Text → Except Failure Text
  | 0, _, rest => failAt rest .nestedTooDeep
  | fuel + 1, first, rest =>
    match skipBlanks rest with
    | [] => failNext [] .endInObject
    | '}' :: rest => .ok rest
    | c :: rest =>
      if first then do
        let rest ← skipMemberWithin fuel (c :: rest)
        skipMembersWithin fuel false rest
      else if c = ',' then do
        let rest ← skipMemberWithin fuel rest
        skipMembersWithin fuel false rest
      else failNext (c :: rest) .expectedCommaInObject

/-- The text after a key, a colon and a value. -/
def skipMemberWithin : (fuel : Nat) → Text → Except Failure Text
  | 0, rest => failAt rest .nestedTooDeep
  | fuel + 1, rest =>
    match skipBlanks rest with
    | [] => failNext [] .endInObject
    | '"' :: rest => do
      let rest ← skipChars rest
      let rest ← skipColon rest
      skipValueWithin fuel rest
    | rest => failNext rest .keyIsNoString

end

/-- The text after a value. No step but the first of a value, a list or a member reads
nothing, so three steps for a character are enough. -/
def skipValue (rest : Text) : Except Failure Text :=
  skipValueWithin (3 * rest.length + 3) rest

end CellFormat.Json
