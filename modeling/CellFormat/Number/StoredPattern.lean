import CellFormat.Text
/-!
# Stored number patterns

Display formats store number patterns in a language with `0` for a digit, `#`
for a digit that is absent when it is zero, and US marks. `toNumeral` turns such
a pattern into a numeral pattern (`CellFormat.Numeral`): common patterns from a
table, all others piece by piece.
-/

namespace CellFormat.StoredPattern

/-- The common patterns and their numeral patterns. -/
def common : List (Text × Text) :=
  [("0,000".toList, "0,0".toList), ("#,###".toList, "0,0".toList),
   ("$ 0,000".toList, "$ 0,0".toList), ("$ #,###".toList, "$ 0,0".toList),
   ("0,000.00".toList, "0,0.00".toList), ("$ 0,000.00".toList, "$ 0,0.00".toList),
   ("#,###.##".toList, "0,0.[00]".toList), ("$ #,###.##".toList, "$ 0,0.[00]".toList)]

/-! ## Decimals -/

/-- Puts a closing bracket after the last zero. -/
def closeAfterLastZero : Text → Text
  | [] => []
  | c :: t => if c = '0' ∧ '0' ∉ t then '0' :: ']' :: t else c :: closeAfterLastZero t

/-- From the first `#` on, decimals are optional: they become zeros in brackets. -/
def decimals (t : Text) : Text :=
  match Text.splitFirst? '#' t with
  | none => t
  | some (fixed, optional) =>
    let zeros := '0' :: optional.map fun c => if c = '#' then '0' else c
    fixed ++ '[' :: closeAfterLastZero zeros

/-! ## Integer groups -/

/-- The currency sign a group begins with, with the space after it, and the rest. -/
def splitCurrency : Text → Text × Text
  | '$' :: ' ' :: t => (['$', ' '], t)
  | '$' :: t => (['$'], t)
  | t => ([], t)

/-- A group of three digits becomes the zeros from its first `0` on, at least one. Anything
else stays. -/
def normalizeGroup (group : Text) : Text :=
  let (currency, digits) := splitCurrency group
  if digits.length = 3 ∧ digits.all (fun c => c = '0' || c = '#') then
    currency ++ List.replicate (max 1 (digits.dropWhile (· = '#')).length) '0'
  else group

/-- The integer part between its first comma and the others. A leading group of one or two
`#` carries no digit and is dropped, its currency sign moving to the next group; one of a
`0` and at most one `#` is a single digit. -/
def groups (first next : Text) (others : List Text) : List Text :=
  let (currency, digits) := splitCurrency first
  if digits = ['#'] ∨ digits = ['#', '#'] then (currency ++ next) :: others
  else if digits = ['0'] ∨ digits = ['0', '#'] ∨ digits = ['#', '0'] then
    (currency ++ ['0']) :: next :: others
  else first :: next :: others

/-- The integer part. Without a comma it stays. -/
def integer (t : Text) : Text :=
  match Text.split ',' t with
  | (_, []) => t
  | (first, next :: others) =>
    List.intercalate [','] <|
      groups (normalizeGroup first) (normalizeGroup next) (others.map normalizeGroup)

/-- The numeral pattern for a stored pattern. Text after a second point stays. -/
def toNumeral (pattern : Text) : Text :=
  match common.lookup pattern with
  | some numeral => numeral
  | none =>
    match Text.split '.' pattern with
    | (whole, []) => integer whole
    | (whole, fraction :: others) =>
      List.intercalate ['.'] (integer whole :: decimals fraction :: others)

end CellFormat.StoredPattern
