import CellFormat.Proofs.Calendar.DayByDay
/-!
# Dates by eras

`ofDays` computes the date of a day without going through the days before it.
Every 400 years, an era, the calendar repeats, and a year that begins in March
has its leap day at its end, so that neither the months of a year nor the years
of an era are moved by leap days. `EraDay` takes the day of an era apart, and
`ofMarch` the day of such a year.

`isCalendar_ofDays`: the dates are those of the calendar.
-/

namespace CellFormat

namespace Date

/-! ## Years that begin in March -/

/-- The days from 1970-01-01 to the first of March of a year. -/
def daysBeforeMarch (year : Int) : Int := 365 * year + year / 4 - year / 100 + year / 400 - 719468

/-- The first day of a month that is counted from March on. January and February are in the next year. -/
def firstOfMonth (year : Int) (m : Nat) : Date :=
  if m < 10 then { year, month := m + 3, day := 1 } else { year := year + 1, month := m - 9, day := 1 }

/-- The date some days after the first of March. -/
def ofMarch (year : Int) (days : Nat) : Date :=
  let first := firstOfMonth year ((5 * days + 2) / 153)
  { first with day := days - (153 * ((5 * days + 2) / 153) + 2) / 5 + 1 }

theorem daysBeforeMarch_eq (year : Int) : daysBeforeMarch year = daysBeforeYear year + 59 + (isLeap year).toNat := by
  have hleap := isLeap_iff year
  unfold daysBeforeMarch daysBeforeYear
  cases h : isLeap year with
  | false =>
    rw [h, iff_false_left Bool.false_ne_true] at hleap
    rw [Bool.toNat_false]
    omega
  | true =>
    rw [h, iff_true_left rfl] at hleap
    rw [Bool.toNat_true]
    omega

theorem daysBeforeYear_succ_eq (year : Int) : daysBeforeYear (year + 1) = daysBeforeMarch year + 306 := by
  unfold daysBeforeMarch daysBeforeYear
  omega

/-- Five months from March on, or from August on, make up 153 days. -/
theorem toDays_firstOfMonth (year : Int) {m : Nat} (hm : m < 12) :
    (firstOfMonth year m).toDays = daysBeforeMarch year + ((153 * m + 2) / 5 : Nat) := by
  have hthis : ∀ leap, ∀ m < 10, daysBefore leap (m + 3) = 59 + leap.toNat + (153 * m + 2) / 5 := by decide
  have hnext : ∀ leap, ∀ m < 12, 10 ≤ m → daysBefore leap (m - 9) + 306 = (153 * m + 2) / 5 := by decide
  unfold firstOfMonth
  split
  · next hlt =>
    simp only [toDays, dayOfYear, hthis _ m hlt, daysBeforeMarch_eq]
    omega
  · next hge =>
    have hbefore := hnext (isLeap (year + 1)) m hm (Nat.le_of_not_lt hge)
    simp only [toDays, dayOfYear, daysBeforeYear_succ_eq]
    omega

/-- Only February, the last month, has a length that depends on the year. -/
theorem monthLength_firstOfMonth (year : Int) {m : Nat} (hm : m < 12) :
    (153 * m + 2) / 5 + monthLength (isLeap (firstOfMonth year m).year) (firstOfMonth year m).month =
      if m = 11 then 365 + (isLeap (year + 1)).toNat else (153 * (m + 1) + 2) / 5 := by
  have hthis : ∀ leap, ∀ m < 10, (153 * m + 2) / 5 + monthLength leap (m + 3) = (153 * (m + 1) + 2) / 5 := by decide
  have hnext : ∀ leap, ∀ m < 12, 10 ≤ m → (153 * m + 2) / 5 + monthLength leap (m - 9) =
      if m = 11 then 365 + leap.toNat else (153 * (m + 1) + 2) / 5 := by decide
  unfold firstOfMonth
  split
  · next hlt =>
    have hlast : m ≠ 11 := by omega
    rw [if_neg hlast]
    exact hthis _ m hlt
  · next hge => exact hnext _ m hm (Nat.le_of_not_lt hge)

theorem firstOfMonth_month (year : Int) {m : Nat} (hm : m < 12) :
    (firstOfMonth year m).day = 1 ∧ 1 ≤ (firstOfMonth year m).month ∧ (firstOfMonth year m).month ≤ 12 := by
  unfold firstOfMonth
  split
  · next hlt => exact ⟨rfl, Nat.le_add_left _ _, Nat.add_le_add_right (Nat.le_of_lt_succ hlt) 3⟩
  · next hge => exact ⟨rfl, Nat.le_sub_of_add_le (Nat.le_of_not_lt hge), Nat.le_trans (Nat.sub_le m 9) (Nat.le_of_lt hm)⟩

section

variable {year : Int} {days : Nat} (h : days < 365 ∨ days = 365 ∧ isLeap (year + 1))
include h

theorem valid_ofMarch : (ofMarch year days).Valid := by
  obtain ⟨m, hm⟩ : ∃ m, m = (5 * days + 2) / 153 := ⟨_, rfl⟩
  have hlt : m < 12 := by omega
  have hlength := monthLength_firstOfMonth year hlt
  rw [ofMarch, ← hm]
  refine ⟨(firstOfMonth_month year hlt).2, Nat.le_add_left _ _, ?_⟩
  simp only
  split at hlength
  · have hlast : days = 365 → (isLeap (year + 1)).toNat = 1 := by
      intro heq
      rcases h with hshort | ⟨-, hleap⟩
      · omega
      · rw [hleap, Bool.toNat_true]
    omega
  · omega

theorem toDays_ofMarch : (ofMarch year days).toDays = daysBeforeMarch year + days := by
  obtain ⟨m, hm⟩ : ∃ m, m = (5 * days + 2) / 153 := ⟨_, rfl⟩
  have hlt : m < 12 := by omega
  have hfirst := toDays_firstOfMonth year hlt
  have hday := (firstOfMonth_month year hlt).1
  rw [ofMarch, ← hm]
  simp only [toDays, dayOfYear] at hfirst ⊢
  omega

end

end Date

/-! ## Eras of 400 years -/

/-- A day of an era: the century it is in, the group of four years in the century, the year of the group, and the
day of the year. Only the last year of a group has one day more, but in the last group of a century only if
the century is the last one too. -/
structure EraDay where
  century : Nat
  group : Nat
  year : Nat
  day : Nat
  century_le : century ≤ 3
  group_le : group ≤ 24
  year_le : year ≤ 3
  day_le : day < 365 ∨ day = 365 ∧ year = 3 ∧ (group = 24 → century = 3)

namespace EraDay

variable (x : EraDay)

/-- The days of the era before it. -/
def index : Nat := 36524 * x.century + 1461 * x.group + 365 * x.year + x.day

/-- The years of the era before its year. -/
def years : Nat := 100 * x.century + 4 * x.group + x.year

theorem exists_index_eq {e : Nat} (h : e < 146097) : ∃ x : EraDay, x.index = e := by
  obtain ⟨c, hc⟩ : ∃ c, c = min 3 (e / 36524) := ⟨_, rfl⟩
  obtain ⟨r, hr⟩ : ∃ r, r = e - 36524 * c := ⟨_, rfl⟩
  obtain ⟨a, ha⟩ : ∃ a, a = min 3 (r % 1461 / 365) := ⟨_, rfl⟩
  refine ⟨⟨c, r / 1461, a, r % 1461 - 365 * a, ?_, ?_, ?_, ?_⟩, ?_⟩
  · omega
  · omega
  · omega
  · omega
  · simp only [index]
    omega

/-- The leap days of the days before it are as many as the divisions give, or one too many on the last days of
a group of years. Neither changes the year. -/
theorem years_eq : (x.index - x.index / 1460 + x.index / 36524 - x.index / 146096) / 365 = x.years := by
  obtain ⟨c, q, a, k, hc, hq, ha, hk⟩ := x
  simp only [index, years]
  generalize he : 36524 * c + 1461 * q + 365 * a + k = e
  have hcentury : e / 36524 = if q = 24 ∧ k = 365 then 4 else c := by split <;> omega
  have hera : e / 146096 = if q = 24 ∧ k = 365 then 1 else 0 := by split <;> omega
  have hgroup : e / 1460 = 25 * c + q + if 1460 ≤ 24 * c + q + 365 * a + k then 1 else 0 := by split <;> omega
  rw [hcentury, hera, hgroup]
  split <;> split <;> omega

theorem index_sub_years : x.index - (365 * x.years + x.years / 4 - x.years / 100) = x.day := by
  obtain ⟨c, q, a, k, hc, hq, ha, hk⟩ := x
  simp only [index, years]
  omega

theorem daysBeforeMarch_add (era : Int) :
    Date.daysBeforeMarch (x.years + era * 400) + x.day = 146097 * era + x.index - 719468 := by
  obtain ⟨c, q, a, k, hc, hq, ha, hk⟩ := x
  simp only [index, years]
  obtain ⟨year, hyear⟩ : ∃ year : Int, year = (100 * c + 4 * q + a : Nat) + era * 400 := ⟨_, rfl⟩
  have hfour : year / 4 = 25 * c + q + 100 * era := by omega
  have hhundred : year / 100 = c + 4 * era := by omega
  have hera : year / 400 = era := by omega
  rw [← hyear, Date.daysBeforeMarch, hfour, hhundred, hera]
  omega

/-- The year with one day more ends in the February of a leap year. -/
theorem isLeap_succ (era : Int) (h : x.day = 365) : Date.isLeap (x.years + era * 400 + 1) = true := by
  obtain ⟨c, q, a, k, hc, hq, ha, hk⟩ := x
  simp only at h
  rw [Date.isLeap_iff]
  simp only [years]
  omega

end EraDay

/-! ## The computed dates -/

namespace Date

theorem ofDays_eq {n : Int} {x : EraDay} (h : x.index = ((n + 719468) % 146097).toNat) :
    ofDays n = ofMarch (x.years + (n + 719468) / 146097 * 400) x.day := by
  have hday := x.day_le
  rw [ofDays, ofMarch, firstOfMonth]
  simp only [← h, x.years_eq, x.index_sub_years]
  generalize hm : (5 * x.day + 2) / 153 = m
  by_cases hlt : m < 10
  · have hmonth : ¬ m + 3 ≤ 2 := by omega
    simp only [if_pos hlt, if_neg hmonth, Int.add_zero]
  · have hmonth : m - 9 ≤ 2 := by omega
    simp only [if_neg hlt, if_pos hmonth]

/-- The date of a day is in the calendar, and there are as many days before it. -/
theorem valid_toDays_ofDays (n : Int) : (ofDays n).Valid ∧ (ofDays n).toDays = n := by
  obtain ⟨x, hx⟩ := EraDay.exists_index_eq (e := ((n + 719468) % 146097).toNat) (by omega)
  have hleap := x.day_le.imp_right fun hlast => And.intro hlast.1 (x.isLeap_succ ((n + 719468) / 146097) hlast.1)
  have hmarch := x.daysBeforeMarch_add ((n + 719468) / 146097)
  rw [ofDays_eq hx]
  refine ⟨valid_ofMarch hleap, ?_⟩
  rw [toDays_ofMarch hleap, hmarch, hx]
  omega

theorem isCalendar_ofDays : IsCalendar ofDays where
  valid n := (valid_toDays_ofDays n).1
  first := by decide
  next n := by
    obtain ⟨htoday, hdays⟩ := valid_toDays_ofDays n
    obtain ⟨hnext, hdays'⟩ := valid_toDays_ofDays (n + 1)
    apply eq_of_toDays_eq hnext htoday.tomorrow
    rw [htoday.toDays_tomorrow, hdays, hdays']

end Date

end CellFormat
