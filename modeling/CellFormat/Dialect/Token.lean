import CellFormat.Text
/-!
# Tokens

The components of a date that a pattern can ask for. The set is closed: a
dialect spells each of them in its own way or does without it, and that is what
lets a pattern move from one dialect to another.
-/

namespace CellFormat

/-- A component of a date, in one of its shapes. -/
inductive Token where
  | dayOfMonth
  | dayOfMonthPadded
  | weekdayShort
  | weekdayLong
  | dayOfYear
  | dayOfYearPadded
  | month
  | monthPadded
  | monthNameShort
  | monthNameLong
  | yearOfCentury
  | year
  | halfOfDay
  | hour24
  | hour24Padded
  | hour12
  | hour12Padded
  | minute
  | minutePadded
  | second
  | secondPadded
  | tenths
  | hundredths
  | milliseconds
  | zoneOffset
  | unixSeconds
  deriving DecidableEq, Repr

/-- Every token; among spellings of one length the earlier token is the one read. -/
def Token.all : List Token :=
  [.dayOfMonth, .dayOfMonthPadded, .weekdayShort, .weekdayLong, .dayOfYear, .dayOfYearPadded,
   .month, .monthPadded, .monthNameShort, .monthNameLong, .yearOfCentury, .year, .halfOfDay,
   .hour24, .hour24Padded, .hour12, .hour12Padded, .minute, .minutePadded, .second,
   .secondPadded, .tenths, .hundredths, .milliseconds, .zoneOffset, .unixSeconds]

/-- The place of a token in `Token.all`. -/
def Token.index (k : Token) : Nat := k.ctorIdx

theorem Token.mem_all (k : Token) : k ∈ Token.all := by
  cases k <;> decide

/-- What holds of every token can be checked. -/
instance Token.decidableForall (P : Token → Prop) [DecidablePred P] : Decidable (∀ k, P k) :=
  decidable_of_iff (∀ k ∈ Token.all, P k) ⟨fun h k => h k k.mem_all, fun h k _ => h k⟩

/-- What holds of some token can be found. -/
instance Token.decidableExists (P : Token → Prop) [DecidablePred P] : Decidable (∃ k, P k) :=
  decidable_of_iff (∃ k ∈ Token.all, P k) ⟨fun ⟨k, _, h⟩ => ⟨k, h⟩, fun ⟨k, h⟩ => ⟨k, k.mem_all, h⟩⟩

theorem Token.getElem?_index (k : Token) : Token.all[k.index]? = some k := by
  cases k <;> rfl

/-- What a pattern consists of: text to show as it is, and tokens to fill in. -/
inductive Segment where
  | literal (text : Text)
  | token (kind : Token)
  deriving DecidableEq, Repr

end CellFormat
