import CellFormat.Text
/-!
# Locales of numbers

A locale fixes the marks inside a number and the currency sign. Locales are
found by their code, whatever its case; an unknown code stands for the first
locale. Display formats store codes of their own, which `numeralCode` maps.
-/

namespace CellFormat

/-- The marks of a number and the currency sign. -/
structure NumberLocale where
  code : Text
  decimalMark : Char
  groupMark : Char
  currency : Text
  deriving DecidableEq, Repr

namespace NumberLocale

/-- English as written in the United States. -/
def us : NumberLocale := ⟨"us".toList, '.', ',', "$".toList⟩

/-- Every locale. -/
def all : List NumberLocale :=
  [us,
   ⟨"es".toList, ',', '.', "€".toList⟩,
   ⟨"th".toList, '.', ',', "฿".toList⟩,
   ⟨"de".toList, ',', ' ', "€".toList⟩,
   ⟨"fr".toList, ',', ' ', "€".toList⟩,
   ⟨"fi".toList, ',', ' ', "€".toList⟩,
   ⟨"ru".toList, ',', ' ', "руб.".toList⟩,
   ⟨"ja".toList, '.', ',', "¥".toList⟩,
   ⟨"chs".toList, '.', ',', "¥".toList⟩,
   ⟨"en-au".toList, '.', ',', "$".toList⟩,
   ⟨"fr-ca".toList, ',', ' ', "$".toList⟩,
   ⟨"en-gb".toList, '.', ',', "£".toList⟩,
   ⟨"da-dk".toList, ',', '.', "DKK".toList⟩,
   ⟨"pt-br".toList, ',', '.', "R$".toList⟩,
   ⟨"cs".toList, ',', ' ', "Kč".toList⟩,
   ⟨"de-ch".toList, '.', '\'', "CHF".toList⟩]

/-- The locale with a code. -/
def lookup (code : Text) : NumberLocale :=
  (all.find? fun l => l.code.equalIgnoringCase code).getD us

/-- The code of the locale that a stored code stands for. -/
def numeralCode (stored : Text) : Text :=
  let codes : List (Text × Text) :=
    [("us".toList, "us".toList), ("es".toList, "es".toList), ("th".toList, "th".toList),
     ("de".toList, "de".toList), ("fr".toList, "fr".toList), ("fi".toList, "fi".toList),
     ("ru".toList, "ru".toList), ("jp".toList, "ja".toList), ("cn".toList, "chs".toList),
     ("au".toList, "en-au".toList), ("ca".toList, "fr-ca".toList), ("gb".toList, "en-gb".toList),
     ("dk".toList, "da-dk".toList), ("br".toList, "pt-br".toList), ("cz".toList, "cs".toList),
     ("ch".toList, "de-ch".toList)]
  (codes.lookup stored).getD "us".toList

end NumberLocale

end CellFormat
