import CellFormat.Proofs.Dialect.Conversion
/-!
# From moment to datepicker and back

Neither of the two conversions loses a token. The first one keeps the segments
as they are, so the second one starts from segments that `moment` has read, and
what `moment` has read side by side it reads side by side again
(`moment_ends_of_greedy`). Only brackets in literals do not come back.
-/

namespace CellFormat.Dialect

open Segment Quoting

/-- A pattern of `moment` without empty regions that is converted to `datepicker` and back has the
segments of the original, with softened brackets. -/
theorem segments_convert_there_and_back (p : Text) (hp : Piece.quoted [] ∉ moment.pieces p 0) :
    moment.segments (datepicker.convert moment (moment.convert datepicker p)) =
      (moment.segments p).map (onLiteral Bracket.soften) := by
  have hq : datepicker.segments (moment.convert datepicker p) = moment.segments p := datepicker_segments_of_moment hp
  have hc : (moment.segments p).IsChain (OnTokens fun k k' => moment.Ends k (moment.spell k')) :=
    isChain_onTokens_imp (fun _ _ => moment_ends_of_greedy) (moment.isChain_segments hp)
  -- The pattern between the two conversions has the same segments, and so the same neighbours.
  rw [← hq] at hc ⊢
  exact moment_bracketed.quotesAs.segments_convert (by decide) moment_spell_ne_nil hc

/-- Letters that are left over, an apostrophe in a region, a closing bracket alone and an opening one. -/
theorem segments_convert_there_and_back_marks :
    Piece.quoted [] ∉ moment.pieces "ddddd[it's D]YYY]SSSS'[D HH".toList 0 ∧
    moment.segments (datepicker.convert moment (moment.convert datepicker "ddddd[it's D]YYY]SSSS'[D HH".toList)) =
      [.token .weekdayLong, .literal "dit's D".toList, .token .yearOfCentury, .literal "Y)".toList,
        .token .milliseconds, .token .tenths, .literal "'(".toList, .token .dayOfMonth, .literal " ".toList,
        .token .hour24Padded] := by
  have h : Piece.quoted [] ∉ moment.pieces "ddddd[it's D]YYY]SSSS'[D HH".toList 0 := by with_unfolding_all decide
  exact ⟨h, (segments_convert_there_and_back _ h).trans (by with_unfolding_all decide)⟩

end CellFormat.Dialect
