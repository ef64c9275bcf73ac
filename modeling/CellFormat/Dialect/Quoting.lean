import CellFormat.Dialect.Basic
/-!
# Quoting rules

Three ways to keep literal text apart from tokens: brackets around it,
apostrophes around it, and percent signs written twice. Each rule has a writer,
which quotes only text that holds a reserved character, and a recognizer of the
regions it writes. A recognizer looks only at the text from its position on, so
each is stated on that text and lifted to positions by `atPosition`.
-/

namespace CellFormat.Quoting

/-- Whether a literal holds a character that forces it to be quoted. -/
def holdsReserved (literal reserved : Text) : Bool :=
  literal.any fun c => reserved.contains c

/-- A recognizer for positions, from one for the text that starts there. -/
def atPosition (recognize : Text → Option Region) (pattern : Text) (position : Nat) :
    Option Region :=
  (pattern.fromByte? position).bind recognize

/-! ## Brackets -/

namespace Bracket

/-- Brackets cannot stand inside a bracketed literal, so parentheses take their place. -/
def soften (literal : Text) : Text :=
  literal.map fun c => if c = '[' then '(' else if c = ']' then ')' else c

/-- Puts brackets around a literal that holds a reserved character. -/
def quote (literal reserved : Text) : Text :=
  if holdsReserved (soften literal) reserved then '[' :: soften literal ++ [']']
  else soften literal

/-- A region runs from a bracket to the first closing one; without one there is no region. -/
def region? : Text → Option Region
  | '[' :: body =>
    (Text.splitFirst? ']' body).map fun (value, _) => { value, bytes := value.bytes + 2 }
  | _ => none

end Bracket

/-! ## Apostrophes -/

namespace Apostrophe

/-- Writes every apostrophe twice. -/
def double (literal : Text) : Text :=
  literal.flatMap fun c => if c = '\'' then ['\'', '\''] else [c]

/-- Puts apostrophes around a literal that holds a reserved character. -/
def quote (literal reserved : Text) : Text :=
  if holdsReserved literal reserved then '\'' :: double literal ++ ['\''] else literal

/-- The text of a region after its opening apostrophe, and the bytes up to and with the
closing one. A doubled apostrophe stands for one; a region that is never closed takes
all that is left. -/
def body : Text → Region
  | [] => { value := [], bytes := 0 }
  | '\'' :: '\'' :: rest =>
    let r := body rest
    { value := '\'' :: r.value, bytes := r.bytes + 2 }
  | '\'' :: _ => { value := [], bytes := 1 }
  | c :: rest =>
    let r := body rest
    { value := c :: r.value, bytes := c.utf8Size + r.bytes }

/-- A region starts at an apostrophe. -/
def region? : Text → Option Region
  | '\'' :: rest => some { value := (body rest).value, bytes := (body rest).bytes + 1 }
  | _ => none

end Apostrophe

/-! ## Doubled percent signs -/

namespace Percent

/-- Writes every percent sign twice. -/
def double (literal : Text) : Text :=
  literal.flatMap fun c => if c = '%' then ['%', '%'] else [c]

/-- Doubles the percent signs of a literal that holds a reserved character. -/
def quote (literal reserved : Text) : Text :=
  if holdsReserved literal reserved then double literal else literal

/-- A region is a pair of percent signs, and stands for one. -/
def region? : Text → Option Region
  | '%' :: '%' :: _ => some { value := ['%'], bytes := 2 }
  | _ => none

end Percent

end CellFormat.Quoting
