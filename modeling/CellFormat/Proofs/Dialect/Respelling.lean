import CellFormat.Proofs.Dialect.Conversion
import Mathlib.Logic.Function.Iterate
/-!
# Tokens that run together

Tokens that `datepicker` tells apart may run together when they are written in
`moment`: `ddd` is a padded day and a day in the one, and becomes the day of the
year in the other. So converting a stored pattern can change its tokens.
`exists_settled` says that `moment` reads what came of them without leaving a
letter over, and would write it as it stands.

`convert_there_and_back_of_converted`: so a converted pattern stays as it is,
however often it is converted to `datepicker` and back.
-/

namespace CellFormat.Dialect

open Segment Quoting

/-- Segments that `moment` reads just so when they are written. -/
structure Settled (ss : List Segment) : Prop where
  gathered : Gathered ss
  soft : ∀ t, .literal t ∈ ss → Bracket.soften t = t
  apart : ss.IsChain (OnTokens fun k k' => moment.Ends k (moment.spell k'))

namespace Settled

variable {k : Token} {ss : List Segment}

theorem segments_write (h : Settled ss) : moment.segments (ss.flatMap moment.write) = ss := by
  have hread := moment_bracketed.quotesAs.reads_write h.gathered (fun k _ => moment_spell_ne_nil k) h.apart
  have hsoft : ss.map (onLiteral Bracket.soften) = ss := by
    refine (List.map_congr_left fun s hs => ?_).trans (List.map_id ss)
    cases s with
    | literal t => exact congrArg Segment.literal (h.soft t hs)
    | token k => rfl
  rw [moment.segments_of_reads (local_of_atPosition rfl) hread, hsoft]

theorem ends_write (h : Settled (.token k :: ss)) : moment.Ends k (ss.flatMap moment.write) :=
  moment_bracketed.quotesAs.ends_write (fun k _ => moment_spell_ne_nil k) (gathered_token_iff.1 h.gathered).nonempty
    fun _ hk' => (List.isChain_cons.1 h.apart).1 _ hk'

theorem nil : Settled [] := ⟨⟨by simp, .nil⟩, by simp, .nil⟩

theorem tail {s : Segment} (h : Settled (s :: ss)) : Settled ss where
  gathered := ⟨fun hm => h.gathered.nonempty (List.mem_cons_of_mem s hm), h.gathered.separate.tail⟩
  soft t ht := h.soft t (List.mem_cons_of_mem s ht)
  apart := h.apart.tail

theorem token (h : Settled ss) (he : moment.Ends k (ss.flatMap moment.write)) : Settled (.token k :: ss) where
  gathered := gathered_token_iff.2 h.gathered
  soft := by simpa using h.soft
  apart := by
    refine List.isChain_cons.2 ⟨fun s hs => ?_, h.apart⟩
    rcases ss with _ | ⟨u | k', ss⟩
    · cases hs
    · cases hs
      trivial
    · cases hs
      exact (moment.ends_append_iff (moment_spell_ne_nil k')).1 he

theorem literal {t : Text} (h : Settled ss) (ht : t ≠ []) (hu : ∀ u, .literal u ∉ ss.head?) :
    Settled (.literal (Bracket.soften t) :: ss) where
  gathered := gathered_literal_iff.2 ⟨Bracket.soften_ne_nil ht, hu, h.gathered⟩
  soft u hm := by
    rcases List.mem_cons.1 hm with hm | hm
    · cases hm
      exact Bracket.soften_soften t
    · exact h.soft u hm
  apart := List.isChain_cons.2 ⟨fun _ _ => trivial, h.apart⟩

/-- A token in front of settled segments may run into the tokens behind it; what comes of that is
settled again. -/
theorem exists_cons (h : Settled ss) (hk : k ≠ .weekdayShort) : ∃ j ss', Settled (.token j :: ss') ∧
    (.token j :: ss').flatMap moment.write = moment.spell k ++ ss.flatMap moment.write := by
  induction ss generalizing k with
  | nil => exact ⟨k, [], h.token (by simp [Ends]), rfl⟩
  | cons s ss ih =>
    by_cases he : moment.Ends k ((s :: ss).flatMap moment.write)
    · exact ⟨k, s :: ss, h.token he, rfl⟩
    cases s with
    | literal t =>
      have hends := moment_bracketed.quotesAs.ends_write (k := k) (fun k _ => moment_spell_ne_nil k)
        h.gathered.nonempty (by simp)
      exact absurd hends he
    | token k' =>
      have hne : ¬ moment.Ends k (moment.spell k') :=
        fun hk' => he ((moment.ends_append_iff (moment_spell_ne_nil k')).2 hk')
      have hhead : (moment.spell k).head? = (moment.spell k').head? := by
        by_contra hn
        exact hne (moment_repeats.ends (moment_spell_ne_nil k) hn)
      rcases moment_fuse k k' hhead hk hne with ⟨j, hj, hf⟩ | ⟨j, -, hf, j', hj, hj'⟩
      -- The two make up one token, and it ends here: `k'` did, although it could have been longer.
      · have hbehind := moment_repeats.head_ne (moment_spell_ne_nil k') hf h.ends_write
        have hjhead : (moment.spell j).head? = (moment.spell k').head? := by
          rw [hj, List.head?_append_of_ne_nil _ (moment_spell_ne_nil k), hhead]
        refine ⟨j, ss, h.tail.token (moment_repeats.ends (moment_spell_ne_nil j) (hjhead ▸ hbehind)), ?_⟩
        rw [List.flatMap_cons, List.flatMap_cons, write, write, hj, List.append_assoc]
      -- The first of two tokens is as long as it gets, and the second one goes on in place of `k`.
      · obtain ⟨i, ss', hss', hw⟩ := ih h.tail hj'
        refine ⟨j, .token i :: ss', hss'.token (hf.ends _), ?_⟩
        rw [List.flatMap_cons, hw, List.flatMap_cons, write, write, ← List.append_assoc, hj, List.append_assoc]

end Settled

/-- What `datepicker` reads is written in `moment` as settled segments are. -/
theorem exists_settled {ss : List Segment} (hg : Gathered ss) (hc : ss.IsChain (OnTokens datepicker.Greedy)) :
    ∃ ss', Settled ss' ∧ ss'.flatMap moment.write = ss.flatMap moment.write ∧
      ((∀ u, .literal u ∉ ss.head?) → ∀ u, .literal u ∉ ss'.head?) := by
  induction ss with
  | nil => exact ⟨[], .nil, rfl, fun h => h⟩
  | cons s ss ih =>
    cases s with
    | literal t =>
      obtain ⟨ht, hu, hg'⟩ := gathered_literal_iff.1 hg
      obtain ⟨ss', hss', hw, hhead⟩ := ih hg' hc.tail
      have hsoft : moment.write (.literal (Bracket.soften t)) = moment.write (.literal t) := by
        simp only [write, escapeLiteral, moment_bracketed.escape, Bracket.quote, Bracket.soften_soften]
      refine ⟨.literal (Bracket.soften t) :: ss', hss'.literal ht (hhead hu), ?_, fun h => absurd rfl (h t)⟩
      rw [List.flatMap_cons, List.flatMap_cons, hw, hsoft]
    | token k =>
      have hg' := gathered_token_iff.1 hg
      obtain ⟨ss', hss', hw, -⟩ := ih hg' hc.tail
      by_cases hk : k = .weekdayShort
      · subst hk
        have he : moment.Ends .weekdayShort (ss.flatMap moment.write) :=
          moment_bracketed.quotesAs.ends_write (fun k _ => moment_spell_ne_nil k) hg'.nonempty
            fun k' hk' => moment_ends_of_weekdayShort k' ((List.isChain_cons.1 hc).1 _ hk')
        refine ⟨.token .weekdayShort :: ss', hss'.token (hw ▸ he), ?_, fun _ => by simp⟩
        rw [List.flatMap_cons, List.flatMap_cons, hw]
      · obtain ⟨j, ss'', hj, hjw⟩ := hss'.exists_cons hk
        refine ⟨.token j :: ss'', hj, ?_, fun _ => by simp⟩
        rw [hjw, hw]
        rfl

/-- Written segments that are settled come back from `datepicker`. -/
theorem Settled.convert_there_and_back {ss : List Segment} (h : Settled ss) :
    datepicker.convert moment (moment.convert datepicker (ss.flatMap moment.write)) = ss.flatMap moment.write := by
  have hread := h.segments_write
  have hc : (moment.segments (ss.flatMap moment.write)).IsChain
      (OnTokens fun k k' => datepicker.Ends k (datepicker.spell k')) := by
    rw [hread]
    exact isChain_onTokens_imp (fun _ _ he => datepicker_ends_of_moment_greedy (moment.greedy_of_ends he)) h.apart
  have hback := datepicker_apostrophed.quotesAs.segments_convert (by decide) datepicker_spell_ne_nil hc
  rw [map_onLiteral_id, hread] at hback
  rw [convert_of_ne (by decide), hback]

/-- A pattern of `datepicker` without empty regions that was converted to `moment` is not changed by
converting it to `datepicker` and back, and so by doing that any number of times. The same holds of
the pattern of `datepicker` that comes in between. -/
theorem convert_there_and_back_of_converted (p : Text) (hp : Piece.quoted [] ∉ datepicker.pieces p 0) :
    datepicker.convert moment (moment.convert datepicker (datepicker.convert moment p)) = datepicker.convert moment p ∧
    (∀ n, Nat.iterate (fun q => datepicker.convert moment (moment.convert datepicker q)) n
      (datepicker.convert moment p) = datepicker.convert moment p) ∧
    ∀ n, Nat.iterate (fun r => moment.convert datepicker (datepicker.convert moment r)) n
      (moment.convert datepicker (datepicker.convert moment p)) =
        moment.convert datepicker (datepicker.convert moment p) := by
  obtain ⟨ss, hss, hw, -⟩ := exists_settled (datepicker.gathered_segments p) (datepicker.isChain_segments hp)
  have hback : datepicker.convert moment (moment.convert datepicker (datepicker.convert moment p)) =
      datepicker.convert moment p := by
    rw [convert_of_ne (by decide) p, ← hw, hss.convert_there_and_back]
  exact ⟨hback, Function.iterate_fixed hback, Function.iterate_fixed (congrArg (moment.convert datepicker) hback)⟩

/-- Days that become a day of the year, months that are cut differently, and letters in a literal. -/
theorem convert_there_and_back_of_converted_runs :
    Piece.quoted [] ∉ datepicker.pieces "ddd ddoo'it''s [D]'mmMDDDyyyyyy".toList 0 ∧
    datepicker.convert moment "ddd ddoo'it''s [D]'mmMDDDyyyyyy".toList =
      "DDD DDDDDD[it's (D)]MMMMMdddddddYYYYYY".toList ∧
    moment.convert datepicker "DDD DDDDDD[it's (D)]MMMMMdddddddYYYYYY".toList =
      "o oodd'it''s (D)'MMmDDDyyyyyy".toList ∧
    datepicker.convert moment "o oodd'it''s (D)'MMmDDDyyyyyy".toList =
      "DDD DDDDDD[it's (D)]MMMMMdddddddYYYYYY".toList := by
  have h : Piece.quoted [] ∉ datepicker.pieces "ddd ddoo'it''s [D]'mmMDDDyyyyyy".toList 0 := by with_unfolding_all decide
  have hq : datepicker.convert moment "ddd ddoo'it''s [D]'mmMDDDyyyyyy".toList =
      "DDD DDDDDD[it's (D)]MMMMMdddddddYYYYYY".toList := by with_unfolding_all decide
  have hr : moment.convert datepicker "DDD DDDDDD[it's (D)]MMMMMdddddddYYYYYY".toList =
      "o oodd'it''s (D)'MMmDDDyyyyyy".toList := by with_unfolding_all decide
  have hback := (convert_there_and_back_of_converted _ h).1
  rw [hq, hr] at hback
  exact ⟨h, hq, hr, hback⟩

end CellFormat.Dialect
