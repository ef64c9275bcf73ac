import CellFormat.Json.Skipping
import CellFormat.Json.Values
/-!
# Lists and records

A record is an object whose members have known names, or a list of their values
in a fixed order. Members in any order are taken, members with other names are
passed over, a missing member keeps its default, and a name that comes twice is
a fault.

Lists and records are containers, and of those only so many may be open at
once. The readers here are handed the way to read the contents of a container
as an option, which is absent when no further container may be opened.
-/

namespace CellFormat.Json

/-- Whether a container goes on: the text at its next item, or the text after its end. -/
inductive Next where
  | item (rest : Text)
  | closed (rest : Text)
  deriving DecidableEq, Repr

/-! ## Lists -/

/-- The next element of a list. -/
def nextElement (first : Bool) (rest : Text) : Except Failure Next :=
  match skipBlanks rest with
  | [] => failNext [] .endInList
  | ']' :: rest => .ok (.closed rest)
  | c :: rest =>
    if first then .ok (.item (c :: rest))
    else if c = ',' then
      match skipBlanks rest with
      | [] => failNext [] .endInValue
      | ']' :: rest => failNext (']' :: rest) .trailingComma
      | rest => .ok (.item rest)
    else failNext (c :: rest) .expectedCommaInList

/-- The elements of a list, from after its bracket or one of them. `fuel` bounds their
number. -/
def readElements {α : Type} (read : Text → Except Failure (α × Text)) :
    (fuel : Nat) → (first : Bool) → Text → Except Failure (List α × Text)
  | 0, _, rest => failAt rest .nestedTooDeep
  | fuel + 1, first, rest => do
    match ← nextElement first rest with
    | .closed rest => .ok ([], rest)
    | .item rest =>
      let (a, rest) ← read rest
      let (as, rest) ← readElements read fuel false rest
      .ok (a :: as, rest)

/-- A list. Every element takes up a character, so the length of the text bounds their
number. -/
def readList {α : Type} (read? : Option (Text → Except Failure (α × Text))) (rest : Text) :
    Except Failure (List α × Text) :=
  match skipBlanks rest with
  | [] => failNext [] .endInValue
  | '[' :: rest =>
    match read? with
    | none => failNext ('[' :: rest) .nestedTooDeep
    | some read => readElements read (rest.length + 1) true rest
  | rest => failWrongType "a sequence".toList rest

/-! ## Records -/

/-- The members of a record: their names in the order of the list form, and for each the
reader of its value, which gives the change to the record. -/
structure RecordShape (φ α : Type) where
  fields : List (Text × φ)
  read : φ → Text → Except Failure ((α → α) × Text)

/-- The text after the opening quote of a key. -/
def openKey : Text → Except Failure Next
  | [] => failNext [] .endInValue
  | '"' :: rest => .ok (.item rest)
  | '}' :: rest => failNext ('}' :: rest) .trailingComma
  | rest => failNext rest .keyIsNoString

/-- The next key of an object. -/
def nextKey (first : Bool) (rest : Text) : Except Failure Next :=
  match skipBlanks rest with
  | [] => failNext [] .endInObject
  | '}' :: rest => .ok (.closed rest)
  | c :: rest =>
    if first then openKey (c :: rest)
    else if c = ',' then openKey (skipBlanks rest)
    else failNext (c :: rest) .expectedCommaInObject

/-- A name that comes twice. If the object ends right after it, the end counts as read. -/
def failDuplicate {α : Type} (name rest : Text) : Except Failure α :=
  match skipBlanks rest with
  | '}' :: rest => failAt rest (.duplicateField name)
  | rest => failAt rest (.duplicateField name)

/-- The text after the bracket that has to end the list form. -/
def closeList (rest : Text) : Except Failure Text :=
  match skipBlanks rest with
  | [] => failNext [] .endInList
  | ']' :: rest => .ok rest
  | ',' :: rest =>
    match skipBlanks rest with
    | ']' :: rest => failNext (']' :: rest) .trailingComma
    | rest => failNext rest .trailingText
  | rest => failNext rest .trailingText

section
variable {φ α : Type} [DecidableEq φ] (shape : RecordShape φ α)

/-- The members of an object, from after its brace or one of them, put into a record. `seen`
are the fields that have come already, and `fuel` bounds the number of members. -/
def readMembers : (fuel : Nat) → (first : Bool) → (seen : List φ) → α → Text →
    Except Failure (α × Text)
  | 0, _, _, _, rest => failAt rest .nestedTooDeep
  | fuel + 1, first, seen, record, rest => do
    match ← nextKey first rest with
    | .closed rest => .ok (record, rest)
    | .item rest =>
      let (key, rest) ← readChars rest
      match shape.fields.lookup key with
      | none =>
        let rest ← skipColon rest
        let rest ← skipValue rest
        readMembers fuel false seen record rest
      | some field =>
        if field ∈ seen then failDuplicate key rest
        else
          let rest ← skipColon rest
          let (change, rest) ← shape.read field rest
          readMembers fuel false (field :: seen) (change record) rest

/-- The values of the list form, put into a record. -/
def readFields : (fields : List φ) → (first : Bool) → α → Text → Except Failure (α × Text)
  | [], _, record, rest => do
    let rest ← closeList rest
    .ok (record, rest)
  | field :: fields, first, record, rest => do
    match ← nextElement first rest with
    | .closed rest => .ok (record, rest)
    | .item rest =>
      let (change, rest) ← shape.read field rest
      readFields fields false (change record) rest

end

/-- A record with the given defaults. Every member takes up a character, so the length of
the text bounds their number. -/
def readRecord {φ α : Type} [DecidableEq φ] (title : Text) (default : α)
    (shape? : Option (RecordShape φ α)) (rest : Text) : Except Failure (α × Text) :=
  match skipBlanks rest with
  | [] => failNext [] .endInValue
  | '{' :: rest =>
    match shape? with
    | none => failNext ('{' :: rest) .nestedTooDeep
    | some shape => readMembers shape (rest.length + 1) true [] default rest
  | '[' :: rest =>
    match shape? with
    | none => failNext ('[' :: rest) .nestedTooDeep
    | some shape => readFields shape (shape.fields.map (·.2)) true default rest
  | rest => failWrongType title rest

/-- A text that holds one value and blanks around it. -/
def readDocument {α : Type} (read : Text → Except Failure (α × Text)) (text : Text) :
    Except Failure α := do
  let (a, rest) ← read text
  match skipBlanks rest with
  | [] => .ok a
  | rest => failNext rest .trailingText

end CellFormat.Json
