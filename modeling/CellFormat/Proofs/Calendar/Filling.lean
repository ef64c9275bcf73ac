import CellFormat.Calendar.Timestamp
import CellFormat.Proofs.Dialect.Conversion
/-!
# Dates are shown piece by piece

A stored pattern is converted to specifiers and these are filled in by another
reader than the one that converted them. `Fills` is what that reader is relied
on for, specifier by specifier and character by character; `Instant.fills` says
that the one of this library is of the kind.

`format_eq_shown`: what is shown is the text of each segment of the stored
pattern, one behind the other. So no pattern makes invalid specifiers, and no
literal text is filled in.
-/

namespace CellFormat

open Dialect Quoting

/-! ## Readers of specifiers -/

/-- A reader of texts with specifiers: two percent signs stand for one, a spelling of `strftime` for
a component, and any other character for itself. -/
structure Fills (fill? : Text → Option Text) (field : Token → Text) : Prop where
  empty : fill? [] = some []
  percent : ∀ rest, fill? ('%' :: '%' :: rest) = (fill? rest).map ('%' :: ·)
  plain : ∀ c rest, c ≠ '%' → fill? (c :: rest) = (fill? rest).map (c :: ·)
  specifier : ∀ k rest, strftime.spell k ≠ [] →
    fill? (strftime.spell k ++ rest) = (fill? rest).map (field k ++ ·)

namespace Instant

variable (t : Instant)

theorem fill?_letter {c : Char} {k : Token} (h : Specifier.letter? c = some k) (rest : Text) :
    t.fill? ('%' :: c :: rest) = (t.fill? rest).map (t.field k ++ ·) := by
  rw [fill?, h]
  · cases t.fill? rest <;> rfl
  -- What begins the other shapes of a specifier is not such a letter.
  all_goals
    intros
    subst_vars
    simp [Specifier.letter?] at h

theorem fill?_unpadded {c : Char} {k : Token} (h : Specifier.unpadded? c = some k) (rest : Text) :
    t.fill? ('%' :: '-' :: c :: rest) = (t.fill? rest).map (t.field k ++ ·) := by
  rw [fill?, h]
  cases t.fill? rest <;> rfl

theorem fill?_milliseconds (rest : Text) :
    t.fill? ('%' :: '3' :: 'f' :: rest) = (t.fill? rest).map (t.field .milliseconds ++ ·) := by
  rw [fill?]
  cases t.fill? rest <;> rfl

theorem fill?_zoneOffset (rest : Text) :
    t.fill? ('%' :: ':' :: 'z' :: rest) = (t.fill? rest).map (t.field .zoneOffset ++ ·) := by
  rw [fill?]
  cases t.fill? rest <;> rfl

theorem fills : Fills t.fill? t.field where
  empty := rfl
  percent rest := by
    rw [fill?]
    cases t.fill? rest <;> rfl
  plain c rest hc := by
    rw [fill?]
    · cases t.fill? rest <;> rfl
    all_goals simp_all
  specifier k rest hk := by
    cases k with
    | tenths | hundredths => exact absurd rfl hk
    | dayOfMonth | dayOfYear | month | hour24 | hour12 | minute | second => exact t.fill?_unpadded rfl rest
    | milliseconds => exact t.fill?_milliseconds rest
    | zoneOffset => exact t.fill?_zoneOffset rest
    | _ => exact t.fill?_letter rfl rest

theorem ofMillis?_millis : ofMillis? t.millis = some t := dif_pos t.covered

end Instant

/-! ## What is shown of a segment -/

/-- Literal text as it is, nothing for the fractions that `strftime` does not spell, and the text of
the component for any other token. -/
def Segment.shown (field : Token → Text) : Segment → Text
  | .literal t => t
  | .token k => if k ∈ [.tenths, .hundredths] then [] else field k

namespace Fills

variable {fill? : Text → Option Text} {field : Token → Text} (hf : Fills fill? field)
include hf

/-- A specifier that stands alone is filled in with its component. -/
theorem fill?_spell {k : Token} (hk : strftime.spell k ≠ []) : fill? (strftime.spell k) = some (field k) := by
  have h := hf.specifier k [] hk
  rwa [List.append_nil, hf.empty, Option.map_some, List.append_nil] at h

/-- Doubled percent signs keep a literal from being filled in. -/
theorem fill?_double (t rest : Text) : fill? (Percent.double t ++ rest) = (fill? rest).map (t ++ ·) := by
  induction t with
  | nil => simp [Percent.double]
  | cons c t ih =>
    rw [Percent.double_cons, List.append_assoc]
    by_cases hc : c = '%'
    · rw [if_pos hc, hc, List.cons_append, List.singleton_append, hf.percent, ih, Option.map_map]
      rfl
    · rw [if_neg hc, List.singleton_append, hf.plain c _ hc, ih, Option.map_map]
      rfl

theorem fill?_write (s : Segment) (rest : Text) :
    fill? (strftime.write s ++ rest) = (fill? rest).map (s.shown field ++ ·) := by
  cases s with
  | literal t =>
    have hw : strftime.write (.literal t) = Percent.double t := Percent.quote_eq_double t
    rw [hw, hf.fill?_double]
    rfl
  | token k =>
    have hiff := strftime_spell_eq_nil_iff k
    rw [write, Segment.shown]
    by_cases hk : strftime.spell k = []
    · rw [if_pos (hiff.1 hk), hk]
      simp
    · rw [if_neg (mt hiff.2 hk), hf.specifier k rest hk]

/-- Written segments are filled in piece by piece. -/
theorem fill?_flatMap_write (ss : List Segment) :
    fill? (ss.flatMap strftime.write) = some (ss.flatMap (Segment.shown field)) := by
  induction ss with
  | nil => exact hf.empty
  | cons s ss ih => rw [List.flatMap_cons, List.flatMap_cons, hf.fill?_write, ih, Option.map_some]

end Fills

namespace Timestamp

theorem formatBy_eq_shown {fill? : Instant → Text → Option Text} {field : Instant → Token → Text} (t : Instant)
    (hf : Fills (fill? t) (field t)) (p : Text) :
    formatBy fill? t.millis p = .ok ((datepicker.segments p).flatMap (Segment.shown (field t))) := by
  rw [formatBy, Instant.ofMillis?_millis, convert_of_ne (by decide)]
  simp only [fillBy, hf.fill?_flatMap_write]

/-- At all milliseconds that the calendar covers, every stored pattern is shown, as the texts of its
segments. This holds for any reader of specifiers, with the components that it fills in for single
specifiers, and so for the reader of `format`. -/
theorem format_eq_shown :
    (∀ (fill? : Instant → Text → Option Text) (field : Instant → Token → Text), (∀ t, Fills (fill? t) (field t)) →
      (∀ t k, strftime.spell k ≠ [] → fill? t (strftime.spell k) = some (field t k)) ∧
      ∀ (millis : Int) (h : Instant.earliest ≤ millis ∧ millis ≤ Instant.latest) (p : Text),
        formatBy fill? millis p = .ok ((datepicker.segments p).flatMap (Segment.shown (field ⟨millis, h⟩)))) ∧
    ∀ (millis : Int) (h : Instant.earliest ≤ millis ∧ millis ≤ Instant.latest) (p : Text),
      format millis p = .ok ((datepicker.segments p).flatMap (Segment.shown (Instant.field ⟨millis, h⟩))) := by
  refine ⟨fun fill? field hf => ⟨fun t k hk => (hf t).fill?_spell hk, ?_⟩, ?_⟩
  · intro millis h p
    exact formatBy_eq_shown ⟨millis, h⟩ (hf _) p
  · intro millis h p
    exact formatBy_eq_shown ⟨millis, h⟩ (Instant.fills _) p

/-- Percent signs, quotes and letters of a literal, and a fraction of one digit. -/
theorem format_literal_percents :
    (∀ t : Instant, Fills t.fill? t.field) ∧
    (Instant.earliest ≤ 1700000000123 ∧ 1700000000123 ≤ Instant.latest) ∧
    formatBy Instant.fill? 1700000000123 "yyyy%d'%d%%''n 'SSS S[%".toList = .ok "2023%14%d%%'n 123 [%".toList ∧
    format 1700000000123 "yyyy%d'%d%%''n 'SSS S[%".toList = .ok "2023%14%d%%'n 123 [%".toList :=
  ⟨fun t => t.fills, by decide,
    ((format_eq_shown.1 _ _ fun t => t.fills).2 _ (by decide) _).trans (by with_unfolding_all decide),
    (format_eq_shown.2 _ (by decide) _).trans (by with_unfolding_all decide)⟩

end Timestamp

end CellFormat
