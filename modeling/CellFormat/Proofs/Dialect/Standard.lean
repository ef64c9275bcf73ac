import CellFormat.Dialect.Standard
import CellFormat.Proofs.Dialect.Literals
import CellFormat.Proofs.Dialect.Neighbours
/-!
# What the standard dialects are like

`moment` and `datepicker` spell their tokens with reserved characters, and a
spelling is one letter, repeated. The spellings of `strftime` begin with a
percent sign, and none begins another. These are facts about the tables, found
by going through them; the theorems about patterns rest on them alone.
-/

namespace CellFormat.Dialect

open Quoting

/-! ## Moment and datepicker -/

theorem moment_bracketed : moment.Bracketed where
  reserved := by decide
  unmarked := by decide
  distinct := by decide
  escape := rfl
  recognize := rfl

theorem datepicker_apostrophed : datepicker.Apostrophed where
  reserved := by decide
  unmarked := by decide
  distinct := by decide
  reserved_mark := by decide
  escape := rfl
  recognize := rfl

theorem moment_spell_ne_nil : ∀ k, moment.spell k ≠ [] := by decide

theorem datepicker_spell_ne_nil : ∀ k, datepicker.spell k ≠ [] := by decide

/-- Each spelling repeats one character. -/
def Repeats (d : Dialect) : Prop := ∀ k, ∀ c ∈ d.spell k, (d.spell k).head? = some c

instance (d : Dialect) : Decidable d.Repeats :=
  decidable_of_iff (∀ k, (d.spell k).all fun c => (d.spell k).head? = some c) (by simp [Repeats])

theorem moment_repeats : moment.Repeats := by decide

theorem datepicker_repeats : datepicker.Repeats := by decide

/-- A repeated character ends in front of another. -/
theorem Repeats.ends {d : Dialect} (hd : d.Repeats) {k : Token} {rest : Text} (hk : d.spell k ≠ [])
    (h : (d.spell k).head? ≠ rest.head?) : d.Ends k rest := by
  obtain ⟨b, t, hb⟩ := List.exists_cons_of_ne_nil hk
  -- A spelling that goes on would have the first characters of both.
  intro c hc k' hp
  have hfirst : (d.spell k').head? = some b := hd k' b (hp.subset (by simp [hb]))
  have hlast : (d.spell k').head? = some c := hd k' c (hp.subset (by simp))
  rw [Option.mem_def.1 hc, ← hlast, hfirst, hb] at h
  exact h rfl

/-- Where a spelling ends although another one goes on from it, its character does not follow. -/
theorem Repeats.head_ne {d : Dialect} (hd : d.Repeats) {k : Token} {rest : Text} (hk : d.spell k ≠ [])
    (hf : ¬ d.Final k) (he : d.Ends k rest) : (d.spell k).head? ≠ rest.head? := by
  intro hh
  unfold Final at hf
  push Not at hf
  obtain ⟨k', ⟨u, hu⟩, hne⟩ := hf
  obtain ⟨c, v, rfl⟩ : ∃ c v, u = c :: v := List.exists_cons_of_ne_nil fun h => hne (by simpa [h] using hu.symm)
  obtain ⟨b, t, hb⟩ := List.exists_cons_of_ne_nil hk
  -- The other spelling goes on with its own character, which is that of `k`.
  have hfirst : (d.spell k').head? = some b := by simp [← hu, hb]
  have hnext : (d.spell k').head? = some c := hd k' c (by simp [← hu])
  refine he c ?_ k' ⟨v, by simpa using hu⟩
  rw [← hh, hb, Option.mem_def, ← hnext, hfirst]
  rfl

/-- Tokens of one letter in `datepicker` are of one letter in `moment`. -/
theorem moment_head_eq : ∀ k k', (datepicker.spell k).head? = (datepicker.spell k').head? →
    (moment.spell k).head? = (moment.spell k').head? := by
  decide

/-- If `moment` reads two tokens of one letter side by side, `datepicker` has no longer spelling of
its letter for the first than the one it uses. -/
theorem datepicker_ends_of_head_eq : ∀ k k', (moment.spell k).head? = (moment.spell k').head? →
    moment.Greedy k k' → datepicker.Ends k (datepicker.spell k') := by
  decide

/-- What `moment` reads side by side, `datepicker` tells apart. -/
theorem datepicker_ends_of_moment_greedy {k k' : Token} (h : moment.Greedy k k') :
    datepicker.Ends k (datepicker.spell k') := by
  by_cases hk : (datepicker.spell k).head? = (datepicker.spell k').head?
  · exact datepicker_ends_of_head_eq k k' (moment_head_eq k k' hk) h
  · exact datepicker_repeats.ends (datepicker_spell_ne_nil k) hk

/-- Two tokens of one letter that `moment` reads side by side are still told apart when they are
written so. -/
theorem moment_ends_of_head_eq : ∀ k k', (moment.spell k).head? = (moment.spell k').head? →
    moment.Greedy k k' → moment.Ends k (moment.spell k') := by
  decide

/-- What `moment` reads side by side, `moment` tells apart. -/
theorem moment_ends_of_greedy {k k' : Token} (h : moment.Greedy k k') : moment.Ends k (moment.spell k') := by
  by_cases hk : (moment.spell k).head? = (moment.spell k').head?
  · exact moment_ends_of_head_eq k k' hk h
  · exact moment_repeats.ends (moment_spell_ne_nil k) hk

/-- What two tokens that `moment` does not tell apart make up together is the spelling of one token, or
those of two tokens, with the first as long as it gets. The short weekday is left out: `dddddd` is not
made up of tokens. -/
theorem moment_fuse : ∀ k k', (moment.spell k).head? = (moment.spell k').head? → k ≠ .weekdayShort →
    ¬ moment.Ends k (moment.spell k') →
    (∃ j, moment.spell j = moment.spell k ++ moment.spell k' ∧ ¬ moment.Final k') ∨
    ∃ j, moment.spell j <+: moment.spell k ++ moment.spell k' ∧ moment.Final j ∧
      ∃ j', moment.spell j ++ moment.spell j' = moment.spell k ++ moment.spell k' ∧ j' ≠ .weekdayShort := by
  decide +kernel

/-- What `datepicker` reads behind a short weekday does not make it longer in `moment`. -/
theorem moment_ends_of_weekdayShort : ∀ k, datepicker.Greedy .weekdayShort k →
    moment.Ends .weekdayShort (moment.spell k) := by
  decide

/-! ## Strftime -/

theorem strftime_head {k : Token} {c : Char} (h : (strftime.spell k).head? = some c) : c = '%' := by
  have hall : ∀ k, (strftime.spell k).head?.all (· = '%') := by decide
  simpa [h] using hall k

/-- All but two tokens have a spelling. -/
theorem strftime_spell_eq_nil_iff : ∀ k, strftime.spell k = [] ↔ k ∈ [.tenths, .hundredths] := by
  decide

theorem strftime_prefix_free : ∀ k k', strftime.spell k ≠ [] → strftime.spell k <+: strftime.spell k' → k' = k := by
  decide

theorem strftime_final {k : Token} (hk : strftime.spell k ≠ []) : strftime.Final k := by
  intro k' hp
  rw [strftime_prefix_free k k' hk hp]

/-- No spelling begins like a doubled percent sign. -/
theorem percent_region?_spell {k : Token} (hk : strftime.spell k ≠ []) (rest : Text) :
    Percent.region? (strftime.spell k ++ rest) = none := by
  cases k with
  | tenths | hundredths => exact absurd rfl hk
  | _ => rfl

end CellFormat.Dialect
