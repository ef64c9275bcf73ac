import CellFormat.Calendar.Date
import Mathlib.Data.Int.Init
/-!
# The calendar day by day

Which day follows a date is known from the lengths of the months: the next one of
the month or, where there is none, the first of the next month (`tomorrow`). A
calendar gives a date to every day, forth and back from 1970-01-01, and goes on
from each to its `tomorrow`; `IsCalendar` says no more than that.

`IsCalendar.toDays_eq`: the days from 1970-01-01 to a date, counted by years and
months, are those that have passed in any such calendar.
-/

namespace CellFormat.Date

/-! ## Lengths of years and months -/

/-- The days of a month. -/
def monthLength (leap : Bool) (month : Nat) : Nat :=
  [31, if leap then 29 else 28, 31, 30, 31, 30, 31, 31, 30, 31, 30, 31].getD (month - 1) 0

/-- The days of a year. -/
def yearLength (year : Int) : Nat := if isLeap year then 366 else 365

/-- The days from 1970-01-01 to the first day of a year. Of the years before it every fourth has
one more day, but of the full centuries only every fourth. -/
def daysBeforeYear (year : Int) : Int :=
  365 * (year - 1970) + ((year - 1) / 4 - 1969 / 4) - ((year - 1) / 100 - 1969 / 100) + ((year - 1) / 400 - 1969 / 400)

/-- The days from 1970-01-01 to a date. -/
def toDays (d : Date) : Int := daysBeforeYear d.year + d.dayOfYear - 1

theorem isLeap_iff (year : Int) : isLeap year = true ↔ year % 4 = 0 ∧ (year % 100 ≠ 0 ∨ year % 400 = 0) := by
  simp [isLeap]

theorem daysBeforeYear_succ (year : Int) : daysBeforeYear (year + 1) = daysBeforeYear year + yearLength year := by
  unfold daysBeforeYear yearLength
  split
  · next h =>
    rw [isLeap_iff] at h
    omega
  · next h =>
    rw [isLeap_iff] at h
    omega

theorem daysBeforeYear_le {year other : Int} (h : year < other) :
    daysBeforeYear year + yearLength year ≤ daysBeforeYear other := by
  rw [← daysBeforeYear_succ]
  unfold daysBeforeYear
  omega

theorem daysBefore_succ : ∀ leap, ∀ month < 12, 1 ≤ month →
    daysBefore leap (month + 1) = daysBefore leap month + monthLength leap month := by
  decide

theorem daysBefore_le : ∀ leap, ∀ other < 13, ∀ month < other, 1 ≤ month →
    daysBefore leap month + monthLength leap month ≤ daysBefore leap other := by
  decide

theorem daysBefore_december (year : Int) : daysBefore (isLeap year) 12 + monthLength (isLeap year) 12 = yearLength year := by
  unfold yearLength
  cases isLeap year <;> rfl

/-! ## Dates and the day after them -/

/-- A day that the calendar has. -/
structure Valid (d : Date) : Prop where
  month : 1 ≤ d.month ∧ d.month ≤ 12
  day : 1 ≤ d.day ∧ d.day ≤ monthLength (isLeap d.year) d.month

/-- The next day of the month, else the first day of the next month. -/
def tomorrow (d : Date) : Date :=
  if d.day < monthLength (isLeap d.year) d.month then { d with day := d.day + 1 }
  else if d.month < 12 then { year := d.year, month := d.month + 1, day := 1 }
  else { year := d.year + 1, month := 1, day := 1 }

namespace Valid

variable {d : Date} (h : d.Valid)
include h

theorem day_le : d.day ≤ 31 := by
  have hlength : ∀ leap, ∀ month < 13, monthLength leap month ≤ 31 := by decide
  exact Nat.le_trans h.day.2 (hlength _ _ (Nat.lt_succ_of_le h.month.2))

theorem dayOfYear_le : 1 ≤ d.dayOfYear ∧ d.dayOfYear ≤ yearLength d.year := by
  obtain ⟨⟨hmonth, hmonth'⟩, hday, hday'⟩ := h
  have hyear := daysBefore_december d.year
  rw [dayOfYear]
  rcases Nat.lt_or_eq_of_le hmonth' with hlt | heq
  · have hle := daysBefore_le (isLeap d.year) 12 (by decide) d.month hlt hmonth
    omega
  · rw [heq] at hday' ⊢
    omega

theorem toDays_tomorrow : d.tomorrow.toDays = d.toDays + 1 := by
  obtain ⟨⟨hmonth, hmonth'⟩, hday, hday'⟩ := h
  unfold tomorrow
  split
  · simp only [toDays, dayOfYear]
    omega
  · next hfull =>
    split
    · next hnext =>
      have hsucc := daysBefore_succ (isLeap d.year) d.month hnext hmonth
      simp only [toDays, dayOfYear]
      omega
    · next hlast =>
      have hdec : d.month = 12 := by omega
      have hyear := daysBefore_december d.year
      have hfirst : daysBefore (isLeap (d.year + 1)) 1 = 0 := by simp [daysBefore]
      rw [hdec] at hfull hday'
      simp only [toDays, dayOfYear, daysBeforeYear_succ, hdec, hfirst]
      omega

theorem tomorrow : d.tomorrow.Valid := by
  obtain ⟨⟨hmonth, hmonth'⟩, hday, hday'⟩ := h
  have hpos : ∀ leap, ∀ month < 13, 1 ≤ month → 1 ≤ monthLength leap month := by decide
  unfold Date.tomorrow
  split
  · next hmore => exact ⟨⟨hmonth, hmonth'⟩, Nat.le_add_left _ _, hmore⟩
  · split
    · next hnext =>
      have hlength := hpos (isLeap d.year) (d.month + 1) (Nat.succ_lt_succ hnext) (Nat.le_add_left _ _)
      exact ⟨⟨Nat.le_add_left _ _, hnext⟩, Nat.le_refl _, hlength⟩
    · exact ⟨⟨Nat.le_refl _, Nat.le_add_left _ _⟩, Nat.le_refl _, hpos _ 1 (Nat.le_add_left _ _) (Nat.le_refl _)⟩

end Valid

theorem year_le_of_toDays_le {d e : Date} (hd : d.Valid) (he : e.Valid) (h : d.toDays ≤ e.toDays) : d.year ≤ e.year := by
  have hday := hd.dayOfYear_le
  have hday' := he.dayOfYear_le
  apply Int.not_lt.1
  intro hlt
  have hyear := daysBeforeYear_le hlt
  unfold toDays at h
  omega

theorem month_le_of_dayOfYear_le {d e : Date} (hd : d.Valid) (he : e.Valid) (hyear : d.year = e.year)
    (h : d.dayOfYear ≤ e.dayOfYear) : d.month ≤ e.month := by
  obtain ⟨⟨hmonth, hmonth'⟩, hday, -⟩ := hd
  obtain ⟨⟨hother, -⟩, -, hother'⟩ := he
  apply Nat.not_lt.1
  intro hlt
  have hle := daysBefore_le (isLeap e.year) d.month (by omega) e.month hlt hother
  rw [dayOfYear, dayOfYear, hyear] at h
  omega

/-- No two dates have the same days before them. -/
theorem eq_of_toDays_eq {d e : Date} (hd : d.Valid) (he : e.Valid) (h : d.toDays = e.toDays) : d = e := by
  have hyear : d.year = e.year := Int.le_antisymm (year_le_of_toDays_le hd he (Int.le_of_eq h))
    (year_le_of_toDays_le he hd (Int.le_of_eq h.symm))
  have hcount : d.dayOfYear = e.dayOfYear := by
    rw [toDays, toDays, hyear] at h
    omega
  have hmonth : d.month = e.month := Nat.le_antisymm (month_le_of_dayOfYear_le hd he hyear (Nat.le_of_eq hcount))
    (month_le_of_dayOfYear_le he hd hyear.symm (Nat.le_of_eq hcount.symm))
  have hday : d.day = e.day := by
    rw [dayOfYear, dayOfYear, hyear, hmonth] at hcount
    omega
  cases d
  cases e
  simp_all

/-! ## Calendars -/

/-- Dates for all days, forth and back from 1970-01-01, that go on day by day. -/
structure IsCalendar (date : Int → Date) : Prop where
  valid : ∀ n, (date n).Valid
  first : date 0 = { year := 1970, month := 1, day := 1 }
  next : ∀ n, date (n + 1) = (date n).tomorrow

theorem IsCalendar.toDays_eq {date : Int → Date} (h : IsCalendar date) (n : Int) : (date n).toDays = n := by
  have hnext : ∀ n, (date (n + 1)).toDays = (date n).toDays + 1 := by
    intro n
    rw [h.next, (h.valid n).toDays_tomorrow]
  -- Forth from the first day, and back from it.
  induction n using Int.induction_on with
  | zero =>
    rw [h.first]
    decide
  | succ n ih => rw [hnext, ih]
  | pred n ih =>
    have hback := hnext (-(n : Int) - 1)
    rw [Int.sub_add_cancel, ih] at hback
    omega

end CellFormat.Date
