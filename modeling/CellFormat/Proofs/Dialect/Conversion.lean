import CellFormat.Proofs.Dialect.Standard
/-!
# Converted patterns mean the same

A converted pattern is read back in its own dialect, and the segments are
compared with those of the pattern it was made from.

`segments_convert_strftime`: they are the same up to the two tokens that
`strftime` lacks. `segments_convert_quoted`: they are the same in `moment` and
`datepicker`, up to softened brackets, if no two tokens of one letter meet.
`segments_convert_moment_datepicker`: from `moment` to `datepicker` that
condition always holds in effect, since `moment` takes the longest token too.
-/

namespace CellFormat.Dialect

open Segment Quoting

theorem convert_of_ne {source dest : Dialect} (hn : source.name ≠ dest.name) (p : Text) :
    source.convert dest p = (source.segments p).flatMap dest.write := if_neg hn

/-! ## To strftime -/

/-- Any segments are read back, but for the tokens without a spelling. -/
theorem reads_write_strftime (ss : List Segment) :
    strftime.Reads (ss.flatMap strftime.write)
      (gather (ss.filter fun s => s ∉ [.token .tenths, .token .hundredths])) := by
  induction ss with
  | nil => exact .done
  | cons s ss ih =>
    rw [List.flatMap_cons]
    cases s with
    | literal t =>
      have hw : strftime.write (.literal t) = Percent.double t := Percent.quote_eq_double t
      rw [List.filter_cons_of_pos (by simp), hw]
      exact reads_percent_double rfl (fun _ _ => strftime_head) ih t
    | token k =>
      have hm : Segment.token k ∈ [.token .tenths, .token .hundredths] ↔ strftime.spell k = [] := by
        rw [strftime_spell_eq_nil_iff]
        simp
      -- A token without a spelling is dropped on both sides.
      by_cases hk : strftime.spell k = []
      · rw [List.filter_cons, if_neg (by rw [decide_eq_true_eq, hm]; exact not_not.2 hk), write, hk]
        exact ih
      · rw [List.filter_cons, if_pos (by rw [decide_eq_true_eq, hm]; exact hk), write]
        have hdistinct : ∀ k', strftime.spell k' = strftime.spell k → k' = k :=
          fun k' he => strftime_prefix_free k k' hk (he ▸ List.prefix_rfl)
        exact reads_token rfl hk (percent_region?_spell hk _) hdistinct ((strftime_final hk).ends _) ih

/-- A pattern converted to `strftime` has the segments of the original without the fractions of a
second that `strftime` does not spell; literals that become neighbours are one literal. -/
theorem segments_convert_strftime (source : Dialect) (hn : source.name ≠ strftime.name) (p : Text) :
    strftime.segments (source.convert strftime p) =
      gather ((source.segments p).filter fun s => s ∉ [.token .tenths, .token .hundredths]) := by
  rw [convert_of_ne hn]
  exact strftime.segments_of_reads (local_of_atPosition rfl) (reads_write_strftime _)

/-- Percent signs in front of tokens, quoted and not, and a token that is dropped. -/
theorem segments_convert_strftime_percents :
    moment.name ≠ strftime.name ∧
    strftime.segments (moment.convert strftime "%D%%[%d]DDS%SSSSS[H]%".toList) =
      [.literal "%".toList, .token .dayOfMonth, .literal "%%%d".toList, .token .dayOfMonthPadded,
        .literal "%".toList, .token .milliseconds, .literal "H%".toList] :=
  ⟨by decide, (segments_convert_strftime moment (by decide) _).trans (by with_unfolding_all decide)⟩

/-! ## To a dialect with guarded spellings -/

theorem QuotesAs.segments_convert {source dest : Dialect} {mark : Char} {f : Text → Text} {g : Text → Text → Text}
    (hq : dest.QuotesAs mark f g) (hn : source.name ≠ dest.name) (hs : ∀ k, dest.spell k ≠ []) {p : Text}
    (hc : (source.segments p).IsChain (OnTokens fun k k' => dest.Ends k (dest.spell k'))) :
    dest.segments (source.convert dest p) = (source.segments p).map (onLiteral f) := by
  obtain ⟨region?, hr, -⟩ := hq.recognize
  rw [convert_of_ne hn]
  exact dest.segments_of_reads (local_of_atPosition hr) (hq.reads_write (source.gathered_segments p) (fun k _ => hs k) hc)

/-- Tokens of different letters end in front of each other. -/
theorem Repeats.isChain_ends {d : Dialect} (hd : d.Repeats) (hs : ∀ k, d.spell k ≠ []) {ss : List Segment}
    (h : ss.IsChain (OnTokens fun k k' => (d.spell k).head? ≠ (d.spell k').head?)) :
    ss.IsChain (OnTokens fun k k' => d.Ends k (d.spell k')) :=
  isChain_onTokens_imp (fun k _ => hd.ends (hs k)) h

/-- A pattern converted to `moment` or `datepicker` has the segments of the original, if no two
tokens meet whose spellings there begin with the same character. `moment` softens brackets. -/
theorem segments_convert_quoted (source : Dialect) (p : Text) :
    (source.name ≠ moment.name →
      (source.segments p).IsChain (OnTokens fun k k' => (moment.spell k).head? ≠ (moment.spell k').head?) →
      moment.segments (source.convert moment p) = (source.segments p).map (onLiteral Bracket.soften)) ∧
    (source.name ≠ datepicker.name →
      (source.segments p).IsChain (OnTokens fun k k' => (datepicker.spell k).head? ≠ (datepicker.spell k').head?) →
      datepicker.segments (source.convert datepicker p) = source.segments p) := by
  constructor
  · intro hn hc
    exact moment_bracketed.quotesAs.segments_convert hn moment_spell_ne_nil
      (moment_repeats.isChain_ends moment_spell_ne_nil hc)
  · intro hn hc
    have h := datepicker_apostrophed.quotesAs.segments_convert hn datepicker_spell_ne_nil
      (datepicker_repeats.isChain_ends datepicker_spell_ne_nil hc)
    rwa [map_onLiteral_id] at h

/-- A literal of brackets and quotes to `moment`, and one that ends in letters to `datepicker`. -/
theorem segments_convert_quoted_marks :
    (datepicker.name ≠ moment.name ∧
      (datepicker.segments "dm'[it''s]'d]o".toList).IsChain
        (OnTokens fun k k' => (moment.spell k).head? ≠ (moment.spell k').head?) ∧
      moment.segments (datepicker.convert moment "dm'[it''s]'d]o".toList) =
        [.token .dayOfMonth, .token .month, .literal "(it's)".toList, .token .dayOfMonth, .literal ")".toList,
          .token .dayOfYear]) ∧
    moment.name ≠ datepicker.name ∧
      (moment.segments "Hmm['o']dD".toList).IsChain
        (OnTokens fun k k' => (datepicker.spell k).head? ≠ (datepicker.spell k').head?) ∧
      datepicker.segments (moment.convert datepicker "Hmm['o']dD".toList) =
        [.token .hour24, .token .minutePadded, .literal "'o'd".toList, .token .dayOfMonth] := by
  have hm : (datepicker.segments "dm'[it''s]'d]o".toList).IsChain
      (OnTokens fun k k' => (moment.spell k).head? ≠ (moment.spell k').head?) := by with_unfolding_all decide
  have hd : (moment.segments "Hmm['o']dD".toList).IsChain
      (OnTokens fun k k' => (datepicker.spell k).head? ≠ (datepicker.spell k').head?) := by with_unfolding_all decide
  exact ⟨⟨by decide, hm, ((segments_convert_quoted datepicker _).1 (by decide) hm).trans (by with_unfolding_all decide)⟩,
    by decide, hd, ((segments_convert_quoted moment _).2 (by decide) hd).trans (by with_unfolding_all decide)⟩

/-! ## From moment to datepicker -/

/-- A region of `moment` needs an opening bracket and a closing one. -/
theorem mem_of_moment_pieces {p v : Text} {i : Nat} (h : .quoted v ∈ moment.pieces p i) : '[' ∈ p ∧ ']' ∈ p := by
  fun_induction moment.pieces p i with
  | case1 => cases h
  | case2 i x n hx ih =>
    rcases List.mem_cons.1 h with rfl | h
    · obtain ⟨r, hr, -⟩ := moment.of_pieceAt?_quoted hx
      obtain ⟨rest, hrest, hregion⟩ := Option.bind_eq_some_iff.1 (Option.filter_eq_some_iff.1 hr).1
      have hsub := (Text.suffix_of_fromByte? hrest).subset
      exact (Bracket.mem_of_region? hregion).imp (fun hm => hsub hm) (fun hm => hsub hm)
    · exact ih h

theorem datepicker_segments_of_moment {p : Text} (hp : Piece.quoted [] ∉ moment.pieces p 0) :
    datepicker.segments (moment.convert datepicker p) = moment.segments p := by
  have hc := isChain_onTokens_imp (fun _ _ => datepicker_ends_of_moment_greedy) (moment.isChain_segments hp)
  have h := datepicker_apostrophed.quotesAs.segments_convert (by decide) datepicker_spell_ne_nil hc
  rwa [map_onLiteral_id] at h

/-- A pattern of `moment` converted to `datepicker` has the segments of the original if no region
in it is empty. So has a run of one character, however long. -/
theorem segments_convert_moment_datepicker :
    (∀ p, Piece.quoted [] ∉ moment.pieces p 0 →
      datepicker.segments (moment.convert datepicker p) = moment.segments p) ∧
    ∀ (c : Char) (n : Nat), datepicker.segments (moment.convert datepicker (List.replicate n c)) =
      moment.segments (List.replicate n c) := by
  refine ⟨fun p => datepicker_segments_of_moment, fun c n => datepicker_segments_of_moment fun h => ?_⟩
  obtain ⟨hopen, hclose⟩ := mem_of_moment_pieces h
  have hc := (List.eq_of_mem_replicate hopen).trans (List.eq_of_mem_replicate hclose).symm
  exact absurd hc (by decide)

/-- Runs that moment reads in two or three tokens, quotes in a literal, and a bracket left open. -/
theorem segments_convert_moment_datepicker_runs :
    Piece.quoted [] ∉ moment.pieces "DDDDDMMMMMMMdddddd[it's]oSSSS[D".toList 0 ∧
    datepicker.segments (moment.convert datepicker "DDDDDMMMMMMMdddddd[it's]oSSSS[D".toList) =
      [.token .dayOfYearPadded, .token .dayOfMonth, .token .monthNameLong, .token .monthNameShort,
        .token .weekdayLong, .literal "ddit'so".toList, .token .milliseconds, .token .tenths,
        .literal "[".toList, .token .dayOfMonth] := by
  have h : Piece.quoted [] ∉ moment.pieces "DDDDDMMMMMMMdddddd[it's]oSSSS[D".toList 0 := by with_unfolding_all decide
  exact ⟨h, (segments_convert_moment_datepicker.1 _ h).trans (by with_unfolding_all decide)⟩

end CellFormat.Dialect
