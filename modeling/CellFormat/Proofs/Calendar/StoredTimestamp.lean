import CellFormat.Proofs.Binary64.Rounding
import CellFormat.Proofs.Calendar.Filling
import CellFormat.Table.Display
/-!
# Stored timestamps

A stored timestamp stands for a number of milliseconds, `exactMillis?`, however
large. The program holds this number in 64 bits and cuts it off at their ends
(`millis_eq`). That does no harm, since the ends are far from every instant of
the calendar: `ofMillis?_saturate`.

So a date cell shows the instant that its number stands for, or the number
itself (`display_of_timestamp`).
-/

namespace CellFormat

/-! ## Whole parts -/

namespace Binary64

/-- A finite number as a number of units with its sign; none if it is not finite. -/
def units? : Binary64 → Option Int
  | .finite negative m => some (if negative then -(m.units : Int) else m.units)
  | _ => none

/-- A finite number without its fraction, however large it is. -/
def truncated? (v : Binary64) : Option Int := v.units?.map (·.tdiv Magnitude.one)

theorem truncated?_finite (negative : Bool) (m : Magnitude) :
    (finite negative m).truncated? = some (if negative then -(m.whole : Int) else m.whole) := by
  cases negative with
  | false => rfl
  | true => exact congrArg some (Int.neg_tdiv ..)

theorem isSome_truncated?_iff (v : Binary64) : v.truncated?.isSome ↔ v.isFinite := by
  rw [truncated?, Option.isSome_map]
  cases v <;> rfl

theorem ofNat_thousand : Binary64.ofNat 1000 = .finite false ⟨1000 * Magnitude.one, by decide +kernel⟩ := by
  rw [ofNat, ofRatio]
  exact ofUnits_eq_finite_iff.2 (Magnitude.nearest_one (by decide +kernel))

/-- The thousandfold is rounded once. -/
theorem mul_thousand (negative : Bool) (m : Magnitude) :
    (finite negative m).mul (.ofNat 1000) = ofUnits negative (1000 * m.units) 1 := by
  have hone : 0 < Magnitude.one := by decide +kernel
  rw [ofNat_thousand, mul, Bool.xor_false]
  apply ofUnits_eq_of_mul_eq hone Nat.one_pos
  rw [Nat.mul_one, ← Nat.mul_assoc, Nat.mul_comm m.units]

/-- Thousandfold numbers below 10^11 are far from the largest finite number. -/
theorem isFinite_mul_thousand {negative : Bool} {m : Magnitude} (h : m.units < 100000000000 * Magnitude.one) :
    ((finite negative m).mul (.ofNat 1000)).isFinite = true := by
  have hbound : 2 * (1000 * (100000000000 * Magnitude.one)) + 1 < Magnitude.overflow := by decide +kernel
  have hnear := Magnitude.nearest_le (1000 * m.units) 1
  rw [Nat.div_one] at hnear
  rw [mul_thousand, ofUnits, dif_pos (by omega), isFinite]

end Binary64

namespace Timestamp

/-! ## Milliseconds without an end -/

/-- A stored timestamp in milliseconds: a positive one below 10^11 counts seconds. -/
def inMillis (v : Binary64) : Binary64 :=
  match v.units? with
  | some u => if 0 < u ∧ u < 100000000000 * Magnitude.one then v.mul (.ofNat 1000) else v
  | none => v

/-- The milliseconds that a stored timestamp stands for, without their fraction. -/
def exactMillis? (v : Binary64) : Option Int := (inMillis v).truncated?

theorem inMillis_finite (negative : Bool) (m : Magnitude) :
    inMillis (.finite negative m) =
      if !negative && 0 < m.units && m.units < secondsLimit then (Binary64.finite negative m).mul (.ofNat 1000)
      else .finite negative m := by
  have hlimit : (secondsLimit : Int) = 100000000000 * Magnitude.one := by rw [secondsLimit, Int.natCast_mul]; rfl
  have hiff : (0 < (if negative then -(m.units : Int) else m.units) ∧
      (if negative then -(m.units : Int) else m.units) < 100000000000 * Magnitude.one) ↔
      (!negative && 0 < m.units && m.units < secondsLimit) = true := by
    rw [← hlimit, Bool.and_eq_true, Bool.and_eq_true, decide_eq_true_eq, decide_eq_true_eq]
    generalize secondsLimit = limit
    cases negative with
    | false =>
      simp only [Bool.false_eq_true, if_false, Bool.not_false, true_and]
      omega
    | true =>
      simp only [if_true, Bool.not_true, Bool.false_eq_true, false_and, iff_false]
      omega
  simp only [inMillis, Binary64.units?, hiff]

theorem isSome_exactMillis?_iff (v : Binary64) : (exactMillis? v).isSome ↔ v.isFinite := by
  rw [exactMillis?, Binary64.isSome_truncated?_iff]
  cases v with
  | nan => rfl
  | infinite _ => rfl
  | finite negative m =>
    rw [inMillis_finite]
    split
    · next h =>
      rw [Bool.and_eq_true, decide_eq_true_eq] at h
      rw [Binary64.isFinite_mul_thousand h.2]
      rfl
    · rfl

/-! ## The ends of 64 bits -/

/-- An integer cut off at the ends of 64 bits. -/
def saturate (t : Int) : Int := max leastMillis (min greatestMillis t)

theorem saturated_eq (negative : Bool) (m : Magnitude) :
    saturated negative m = saturate (if negative then -(m.whole : Int) else m.whole) := by
  unfold saturated saturate leastMillis greatestMillis
  cases negative with
  | false =>
    rw [if_neg Bool.false_ne_true, if_neg Bool.false_ne_true]
    omega
  | true =>
    rw [if_pos rfl, if_pos rfl]
    omega

theorem millis_eq (v : Binary64) :
    millis v = (exactMillis? v).elim (.error .notFinite) fun t => .ok (saturate t) := by
  cases v with
  | nan => rfl
  | infinite _ => rfl
  | finite negative m =>
    rw [exactMillis?, inMillis_finite, millis]
    generalize hscaled : (if (!negative && decide (0 < m.units) && decide (m.units < secondsLimit)) = true then
      (Binary64.finite negative m).mul (.ofNat 1000) else .finite negative m) = scaled
    cases scaled with
    | nan => rfl
    | infinite _ => rfl
    | finite negative m =>
      rw [Binary64.truncated?_finite, Option.elim_some, ← saturated_eq]

theorem saturate_of_covered {t : Int} (h : Instant.earliest ≤ t ∧ t ≤ Instant.latest) : saturate t = t := by
  simp only [saturate, leastMillis, greatestMillis, Instant.earliest, Instant.latest] at h ⊢
  omega

/-- The calendar covers neither end of 64 bits, so what is cut off there is no instant. -/
theorem ofMillis?_saturate (t : Int) : Instant.ofMillis? (saturate t) = Instant.ofMillis? t := by
  by_cases ht : Instant.earliest ≤ t ∧ t ≤ Instant.latest
  · rw [saturate_of_covered ht]
  · have hout : ¬ (Instant.earliest ≤ saturate t ∧ saturate t ≤ Instant.latest) := by
      simp only [saturate, leastMillis, greatestMillis, Instant.earliest, Instant.latest] at ht ⊢
      omega
    rw [Instant.ofMillis?, Instant.ofMillis?, dif_neg ht, dif_neg hout]

end Timestamp

/-! ## What is shown -/

open Timestamp

namespace Display

variable {v : Binary64}

/-- An instant of the calendar is shown by every pattern. -/
theorem timestamp_of_covered {t : Int} (hv : exactMillis? v = some t)
    (ht : Instant.earliest ≤ t ∧ t ≤ Instant.latest) (p : Text) : format t p = .ok (timestamp v p) := by
  have hshown : format t p = .ok _ := formatBy_eq_shown ⟨t, ht⟩ (Instant.fills _) p
  have hmillis : millis v = .ok t := by
    rw [millis_eq, hv, Option.elim_some, saturate_of_covered ht]
  rw [hshown, timestamp, hmillis]
  simp only [hshown]

/-- Any other number is shown as a number. -/
theorem timestamp_of_not_covered
    (h : ∀ t, exactMillis? v = some t → ¬ (Instant.earliest ≤ t ∧ t ≤ Instant.latest)) (p : Text) :
    timestamp v p = NumberLayout.display.write v := by
  rw [timestamp, millis_eq]
  cases hv : exactMillis? v with
  | none => rfl
  | some t =>
    have hnone : Instant.ofMillis? (saturate t) = none := by
      rw [ofMillis?_saturate]
      exact dif_neg (h t hv)
    have herror : format (saturate t) p = .error (.outOfRange (saturate t)) := by
      rw [format, formatBy, hnone]
    simp only [Option.elim_some, herror]
    rfl

end Display

/-- A date cell with a display format shows the instant at the milliseconds that its number stands for,
if the number is finite and the calendar covers them, and in all other cases the number. -/
theorem Cell.display_of_timestamp {c : Cell} {v : Binary64} {f : DisplayFormat} (hk : c.kind = .date)
    (hn : c.number = some v) (hf : c.displayFormat = some f) :
    ((exactMillis? v).isSome ↔ v.isFinite) ∧
      (∀ t, exactMillis? v = some t → Instant.earliest ≤ t ∧ t ≤ Instant.latest →
        format t f.pattern = .ok c.display) ∧
      ((∀ t, exactMillis? v = some t → ¬ (Instant.earliest ≤ t ∧ t ≤ Instant.latest)) →
        c.display = NumberLayout.display.write v) := by
  have hdisplay : c.display = Display.timestamp v f.pattern := by
    rw [display, hk, hn, hf]
  rw [hdisplay]
  exact ⟨isSome_exactMillis?_iff v, fun t hv ht => Display.timestamp_of_covered hv ht f.pattern,
    fun h => Display.timestamp_of_not_covered h f.pattern⟩

/-- Seconds with a fraction of a millisecond, and milliseconds below the end of 64 bits. -/
theorem Cell.display_of_timestamp_ends :
    let f : DisplayFormat := ⟨"yyyy-mm-dd HH:nn:ss.SSS 'd'".toList, none⟩
    let seconds := Decimal.toBinary64 false ⟨17000000001239, -4⟩
    let early := Decimal.toBinary64 true ⟨1, 300⟩
    let shown : Binary64 → Text := fun v => ({ kind := .date, number := some v, displayFormat := some f } : Cell).display
    exactMillis? seconds = some 1700000000123 ∧ shown seconds = "2023-11-14 22:13:20.123 d".toList ∧
      format 1700000000123 f.pattern = .ok (shown seconds) ∧
      (∀ t, exactMillis? early = some t → ¬ (Instant.earliest ≤ t ∧ t ≤ Instant.latest)) ∧
      shown early = "-1e+300".toList := by
  intro f seconds early shown
  have hseconds : exactMillis? seconds = some 1700000000123 := by decide +kernel
  have hearly : ∀ t ∈ exactMillis? early, ¬ (Instant.earliest ≤ t ∧ t ≤ Instant.latest) := by decide +kernel
  have hshown : shown seconds = "2023-11-14 22:13:20.123 d".toList := by decide +kernel
  obtain ⟨-, hcovered, -⟩ :=
    Cell.display_of_timestamp (c := { kind := .date, number := some seconds, displayFormat := some f }) rfl rfl rfl
  obtain ⟨-, -, hplain⟩ :=
    Cell.display_of_timestamp (c := { kind := .date, number := some early, displayFormat := some f }) rfl rfl rfl
  refine ⟨hseconds, hshown, hcovered _ hseconds (by decide), hearly, (hplain hearly).trans ?_⟩
  decide +kernel

end CellFormat
