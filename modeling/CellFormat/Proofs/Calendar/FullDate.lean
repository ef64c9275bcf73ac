import CellFormat.Proofs.Calendar.Eras
import CellFormat.Proofs.Calendar.Filling
import CellFormat.Proofs.Number.Digits
/-!
# Full dates

A pattern that asks for the year, the month, the day and the time of day down to
milliseconds leaves nothing of an instant out. All components but the year have
a fixed number of digits, so each has its place, counted from the end of the
text, and the year is what stands in front of them: `read?` reads them there.

`full_dates_tell_instants`: the components that are read from a shown instant
make up its milliseconds. So different instants are shown differently.
-/

namespace CellFormat

namespace Text

/-- The characters at a place of a text that is counted from its end. -/
def fromEnd (place width : Nat) (t : Text) : Text := (t.drop (t.length - place)).take width

theorem fromEnd_flatten {pieces : List Text} {i : Nat} {w : Text} (h : pieces[i]? = some w) :
    fromEnd (pieces.drop i).flatten.length w.length pieces.flatten = w := by
  obtain ⟨hi, rfl⟩ := List.getElem?_eq_some_iff.1 h
  have hsplit : pieces.flatten = (pieces.take i).flatten ++ (pieces.drop i).flatten := by
    rw [← List.flatten_append, List.take_append_drop]
  rw [fromEnd, hsplit, List.length_append, Nat.add_sub_cancel, List.drop_left, List.drop_eq_getElem_cons hi,
    List.flatten_cons, List.take_left]

/-- The width of several pieces together. -/
def total (widths : List Nat) : Nat := widths.foldr Nat.add 0

theorem length_flatten_eq_total (pieces : List Text) : pieces.flatten.length = total (pieces.map List.length) :=
  List.length_flatten

end Text

/-- A date and a time of day. -/
structure DateTime where
  date : Date
  hour : Nat
  minute : Nat
  second : Nat
  millisecond : Nat
  deriving DecidableEq, Repr

namespace DateTime

open Text

/-- A day of the calendar and a time of day on the clock. -/
structure Valid (x : DateTime) : Prop where
  date : x.date.Valid
  hour : x.hour < 24
  minute : x.minute < 60
  second : x.second < 60
  millisecond : x.millisecond < 1000

/-- The milliseconds since the start of 1970: those of the full days, and those of the time of day. -/
def millis (x : DateTime) : Int :=
  x.date.toDays * 86400000 + (((x.hour * 60 + x.minute) * 60 + x.second) * 1000 + x.millisecond : Nat)

/-! ## The text of all components -/

/-- The form that shows all components. -/
def pattern : Text := "yyyy-mm-dd HH:nn:ss.SSS".toList

/-- The components at their places in a text of this form. -/
def read? (t : Text) : Option DateTime := do
  let year ← Decimal.int? (t.take (t.length - 19))
  let month ← Decimal.nat? (t.fromEnd 18 2)
  let day ← Decimal.nat? (t.fromEnd 15 2)
  let hour ← Decimal.nat? (t.fromEnd 12 2)
  let minute ← Decimal.nat? (t.fromEnd 9 2)
  let second ← Decimal.nat? (t.fromEnd 6 2)
  let millisecond ← Decimal.nat? (t.fromEnd 3 3)
  some { date := { year, month, day }, hour, minute, second, millisecond }

/-- The components and the marks between them. -/
def pieces (x : DateTime) : List Text :=
  [Instant.yearText x.date.year, ['-'], ofNatFilled 2 x.date.month, ['-'], ofNatFilled 2 x.date.day, [' '],
    ofNatFilled 2 x.hour, [':'], ofNatFilled 2 x.minute, [':'], ofNatFilled 2 x.second, ['.'],
    ofNatFilled 3 x.millisecond]

theorem int?_yearText (year : Int) : Decimal.int? (Instant.yearText year) = some year := by
  unfold Instant.yearText
  split
  · have hvalue : -(year.natAbs : Int) = year := by omega
    simp only [Decimal.int?, nat?_ofNatFilled]
    exact congrArg some hvalue
  · split
    · rw [Decimal.int?_of_isNumeral (isNumeral_ofNatFilled _ _), ofNatFilled, natOfDigits_zeroFill,
        Decimal.natOfDigits_ofNat]
      exact congrArg some (by omega)
    · simp only [Decimal.int?, nat?_ofNatFilled]
      exact congrArg some (Int.toNat_of_nonneg (by omega))

/-- Only a year outside of 0 to 9999 has a sign. -/
theorem head?_yearText (year : Int) :
    ((Instant.yearText year).head? = some '-' ↔ year < 0) ∧ ((Instant.yearText year).head? = some '+' ↔ 9999 < year) := by
  unfold Instant.yearText
  split
  · next hneg =>
    rw [List.head?_cons]
    exact ⟨iff_of_true rfl hneg, iff_of_false (by decide) (by omega)⟩
  · next hpos =>
    split
    · next hlow =>
      have hdigits := (isNumeral_ofNatFilled 4 year.toNat).2
      have hsign : ∀ c, c.isDigit = false → (ofNatFilled 4 year.toNat).head? ≠ some c :=
        fun c hc hhead => not_mem_of_isDigit hdigits hc (List.mem_of_head? hhead)
      exact ⟨iff_of_false (hsign '-' (by decide)) hpos, iff_of_false (hsign '+' (by decide)) (by omega)⟩
    · next hhigh =>
      rw [List.head?_cons]
      exact ⟨iff_of_false (by decide) hpos, iff_of_true rfl (by omega)⟩

theorem head?_pieces (x : DateTime) : x.pieces.flatten.head? = (Instant.yearText x.date.year).head? := by
  have hne : Instant.yearText x.date.year ≠ [] := by
    intro hnil
    have hread := int?_yearText x.date.year
    rw [hnil] at hread
    cases hread
  exact List.head?_append_of_ne_nil _ hne

/-- How wide the pieces behind the year are. -/
def widths : List Nat := [1, 2, 1, 2, 1, 2, 1, 2, 1, 2, 1, 3]

namespace Valid

variable {x : DateTime} (h : x.Valid)
include h

theorem widths_eq : x.pieces.tail.map List.length = widths := by
  obtain ⟨hdate, hhour, hminute, hsecond, hmillisecond⟩ := h
  have hday := hdate.day_le
  have hmonth := hdate.month.2
  have htwo : ∀ n < 100, (ofNatFilled 2 n).length = 2 := fun n hn => length_ofNatFilled (by decide) hn
  have hthree : (ofNatFilled 3 x.millisecond).length = 3 := length_ofNatFilled (by decide) hmillisecond
  simp only [pieces, widths, List.tail_cons, List.map_cons, List.map_nil, List.length_singleton, hthree,
    htwo x.date.month (by omega), htwo x.date.day (by omega), htwo x.hour (by omega), htwo x.minute (by omega),
    htwo x.second (by omega)]

/-- Each piece behind the year has its place. -/
theorem fromEnd_eq {i place width : Nat} {w : Text} (hw : x.pieces[i + 1]? = some w)
    (hwidth : widths[i]? = some width) (hplace : total (widths.drop i) = place) :
    fromEnd place width x.pieces.flatten = w := by
  have hdrop : (x.pieces.drop (i + 1)).flatten.length = place := by
    rw [length_flatten_eq_total, ← List.drop_tail, List.map_drop, h.widths_eq, hplace]
  have hlength : w.length = width := by
    rw [← h.widths_eq, List.getElem?_map, List.getElem?_tail, hw] at hwidth
    simpa using hwidth
  rw [← hlength, ← hdrop]
  exact fromEnd_flatten hw

/-- The year stands in front of them. -/
theorem take_eq : x.pieces.flatten.take (x.pieces.flatten.length - 19) = Instant.yearText x.date.year := by
  have hrest : x.pieces.tail.flatten.length = 19 := by
    rw [length_flatten_eq_total, h.widths_eq]
    rfl
  have hsplit : x.pieces.flatten = Instant.yearText x.date.year ++ x.pieces.tail.flatten := rfl
  rw [hsplit, List.length_append, hrest, Nat.add_sub_cancel, List.take_left]

theorem read?_pieces : read? x.pieces.flatten = some x := by
  have hmonth : fromEnd 18 2 x.pieces.flatten = ofNatFilled 2 x.date.month := h.fromEnd_eq (i := 1) rfl rfl rfl
  have hday : fromEnd 15 2 x.pieces.flatten = ofNatFilled 2 x.date.day := h.fromEnd_eq (i := 3) rfl rfl rfl
  have hhour : fromEnd 12 2 x.pieces.flatten = ofNatFilled 2 x.hour := h.fromEnd_eq (i := 5) rfl rfl rfl
  have hminute : fromEnd 9 2 x.pieces.flatten = ofNatFilled 2 x.minute := h.fromEnd_eq (i := 7) rfl rfl rfl
  have hsecond : fromEnd 6 2 x.pieces.flatten = ofNatFilled 2 x.second := h.fromEnd_eq (i := 9) rfl rfl rfl
  have hmillisecond : fromEnd 3 3 x.pieces.flatten = ofNatFilled 3 x.millisecond := h.fromEnd_eq (i := 11) rfl rfl rfl
  rw [read?, h.take_eq, hmonth, hday, hhour, hminute, hsecond, hmillisecond, int?_yearText]
  simp only [nat?_ofNatFilled]
  rfl

end Valid

end DateTime

/-! ## Instants -/

namespace Instant

variable {date : Int → Date} (t : Instant)

/-- The components of an instant in UTC, by the dates of a calendar. -/
def dateTime (date : Int → Date) (t : Instant) : DateTime :=
  { date := date t.days, hour := t.hour, minute := t.minute, second := t.second, millisecond := t.millisecond }

theorem valid_dateTime (h : Date.IsCalendar date) : (t.dateTime date).Valid := by
  have hday : t.millisOfDay < 86400000 := by
    unfold millisOfDay
    omega
  refine ⟨h.valid t.days, ?_, ?_, ?_, ?_⟩
  · simp only [dateTime, hour]
    omega
  · exact Nat.mod_lt _ (by decide)
  · exact Nat.mod_lt _ (by decide)
  · exact Nat.mod_lt _ (by decide)

/-- No part of the milliseconds is left out. -/
theorem millis_dateTime (h : Date.IsCalendar date) : (t.dateTime date).millis = t.millis := by
  have hclock : ((t.hour * 60 + t.minute) * 60 + t.second) * 1000 + t.millisecond = t.millisOfDay := by
    unfold hour minute second millisecond
    omega
  have hday : t.days * 86400000 + t.millisOfDay = t.millis := by
    unfold days millisOfDay
    omega
  rw [← hday, DateTime.millis]
  simp only [dateTime, h.toDays_eq, hclock]

end Instant

/-- A reader of specifiers that fills in the components of dates and times of day: the date is that of a
calendar, the time is counted from the start of the day in UTC, and zeros fill up their digits. -/
structure FillsInUtc (fill? : Instant → Text → Option Text) (field : Instant → Token → Text) (date : Int → Date) :
    Prop where
  fills : ∀ t, Fills (fill? t) (field t)
  calendar : Date.IsCalendar date
  year : ∀ t, field t .year = Instant.yearText (date t.days).year
  month : ∀ t, field t .monthPadded = Text.ofNatFilled 2 (date t.days).month
  day : ∀ t, field t .dayOfMonthPadded = Text.ofNatFilled 2 (date t.days).day
  hour : ∀ t, field t .hour24Padded = Text.ofNatFilled 2 t.hour
  minute : ∀ t, field t .minutePadded = Text.ofNatFilled 2 t.minute
  second : ∀ t, field t .secondPadded = Text.ofNatFilled 2 t.second
  millisecond : ∀ t, field t .milliseconds = Text.ofNatFilled 3 t.millisecond

theorem Instant.fillsInUtc : FillsInUtc Instant.fill? Instant.field Date.ofDays where
  fills t := t.fills
  calendar := Date.isCalendar_ofDays
  year _ := rfl
  month _ := rfl
  day _ := rfl
  hour _ := rfl
  minute _ := rfl
  second _ := rfl
  millisecond _ := rfl

theorem DateTime.segments_pattern :
    Dialect.datepicker.segments DateTime.pattern =
      [.token .year, .literal ['-'], .token .monthPadded, .literal ['-'], .token .dayOfMonthPadded, .literal [' '],
        .token .hour24Padded, .literal [':'], .token .minutePadded, .literal [':'], .token .secondPadded,
        .literal ['.'], .token .milliseconds] := by
  with_unfolding_all decide

namespace Timestamp

theorem formatBy_pattern {fill? : Instant → Text → Option Text} {field : Instant → Token → Text} {date : Int → Date}
    (h : FillsInUtc fill? field date) (t : Instant) :
    formatBy fill? t.millis DateTime.pattern = .ok (t.dateTime date).pieces.flatten := by
  rw [formatBy_eq_shown t (h.fills t), DateTime.segments_pattern]
  refine congrArg Except.ok (congrArg List.flatten ?_)
  simp only [List.map_cons, List.map_nil, DateTime.pieces, Instant.dateTime, ← h.year, ← h.month, ← h.day, ← h.hour,
    ← h.minute, ← h.second, ← h.millisecond]
  rfl

/-- What is shown of all components tells the milliseconds: they are made up of the components that stand in
their places, and different ones are shown differently. A year has a sign if it is not one of 0 to 9999. -/
def TellsInstants (shown : Int → Text → Except TimestampError Text) : Prop :=
  (∀ millis, Instant.earliest ≤ millis ∧ millis ≤ Instant.latest →
    ∃ text x, shown millis DateTime.pattern = .ok text ∧ DateTime.read? text = some x ∧ x.Valid ∧
      x.millis = millis ∧ (text.head? = some '-' ↔ x.date.year < 0) ∧ (text.head? = some '+' ↔ 9999 < x.date.year)) ∧
  ∀ millis millis', Instant.earliest ≤ millis ∧ millis ≤ Instant.latest →
    Instant.earliest ≤ millis' ∧ millis' ≤ Instant.latest → millis ≠ millis' →
    shown millis DateTime.pattern ≠ shown millis' DateTime.pattern

/-- All milliseconds that the calendar covers can be told from their full dates. This holds for any reader of
specifiers that knows the Gregorian calendar, and so for the reader of `format`. -/
theorem full_dates_tell_instants :
    (∀ (fill? : Instant → Text → Option Text) (field : Instant → Token → Text) (date : Int → Date),
      FillsInUtc fill? field date → TellsInstants (formatBy fill?)) ∧
    TellsInstants format := by
  have hall : ∀ (fill? : Instant → Text → Option Text) (field : Instant → Token → Text) (date : Int → Date),
      FillsInUtc fill? field date → TellsInstants (formatBy fill?) := by
    intro fill? field date h
    have hshown : ∀ t : Instant, formatBy fill? t.millis DateTime.pattern = .ok (t.dateTime date).pieces.flatten :=
      formatBy_pattern h
    have hread : ∀ t : Instant, DateTime.read? (t.dateTime date).pieces.flatten = some (t.dateTime date) :=
      fun t => (t.valid_dateTime h.calendar).read?_pieces
    constructor
    · intro millis hcovered
      have hsign := DateTime.head?_yearText ((⟨millis, hcovered⟩ : Instant).dateTime date).date.year
      rw [← DateTime.head?_pieces] at hsign
      exact ⟨_, _, hshown ⟨millis, hcovered⟩, hread _, Instant.valid_dateTime _ h.calendar,
        Instant.millis_dateTime _ h.calendar, hsign⟩
    · intro millis millis' hcovered hcovered' hne heq
      rw [hshown ⟨millis, hcovered⟩, hshown ⟨millis', hcovered'⟩, Except.ok.injEq] at heq
      have hsame := (hread ⟨millis, hcovered⟩).symm.trans ((congrArg DateTime.read? heq).trans (hread ⟨millis', hcovered'⟩))
      have hmillis := congrArg DateTime.millis (Option.some.inj hsame)
      rw [Instant.millis_dateTime _ h.calendar, Instant.millis_dateTime _ h.calendar] at hmillis
      exact hne hmillis
  exact ⟨hall, hall _ _ _ Instant.fillsInUtc⟩

/-- The last millisecond of the year -1, and the one after it. -/
theorem full_dates_tell_instants_before_zero :
    FillsInUtc Instant.fill? Instant.field Date.ofDays ∧
    (Instant.earliest ≤ -62167219200001 ∧ -62167219200001 ≤ Instant.latest) ∧
    (Instant.earliest ≤ -62167219200000 ∧ -62167219200000 ≤ Instant.latest) ∧
    formatBy Instant.fill? (-62167219200001) DateTime.pattern ≠ formatBy Instant.fill? (-62167219200000) DateTime.pattern ∧
    format (-62167219200001) DateTime.pattern = .ok "-0001-12-31 23:59:59.999".toList ∧
    DateTime.millis ⟨⟨-1, 12, 31⟩, 23, 59, 59, 999⟩ = -62167219200001 := by
  have hcovered : Instant.earliest ≤ -62167219200001 ∧ -62167219200001 ≤ Instant.latest := by decide
  have hnext : Instant.earliest ≤ -62167219200000 ∧ -62167219200000 ≤ Instant.latest := by decide
  have hshown : format (-62167219200001) DateTime.pattern = .ok "-0001-12-31 23:59:59.999".toList :=
    (formatBy_pattern Instant.fillsInUtc ⟨-62167219200001, by decide⟩).trans (by with_unfolding_all decide)
  obtain ⟨text, x, htext, hread, -, hmillis, -⟩ := full_dates_tell_instants.2.1 _ hcovered
  cases htext.symm.trans hshown
  cases hread
  exact ⟨Instant.fillsInUtc, hcovered, hnext,
    (full_dates_tell_instants.1 _ _ _ Instant.fillsInUtc).2 _ _ hcovered hnext (by decide), hshown, hmillis⟩

end Timestamp

end CellFormat
