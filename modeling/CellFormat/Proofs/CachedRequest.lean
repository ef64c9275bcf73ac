import CellFormat.CachedRequest
import CellFormat.Proofs.Dialect.ConversionCache
/-!
# Sharing a cache does not change an answer

`runBy_eq` is the step, for a request of any kind, and `runAllBy_eq` the run:
from a sound store on, requests are answered as if nothing were kept, and the
store stays sound. `answers_of_shared_cache` says this of runs that start with an
empty store.
-/

namespace CellFormat.CachedRequest

open ConversionCache Dialect

section Store

variable {σ : Type} {store : ConversionStore σ} {n : Nat} {entries : σ → List (ConversionKey × Text)}
  (hs : store.KeepsRecent n entries) (fill? : Instant → Text → Option Text) {held : σ} (h : Sound n (entries held))
include hs h

theorem runBy_eq (r : CachedRequest) :
    (runBy store fill? held r).1 = answerBy fill? r ∧ Sound n (entries (runBy store fill? held r).2) := by
  cases r with
  | datepickerToMoment p =>
    obtain ⟨hp, hafter⟩ := hs.convert_eq h datepicker_mem_standard moment_mem_standard p
    exact ⟨congrArg Except.ok hp, hafter⟩
  | momentToDatepicker p =>
    obtain ⟨hp, hafter⟩ := hs.convert_eq h moment_mem_standard datepicker_mem_standard p
    exact ⟨congrArg Except.ok hp, hafter⟩
  | formatTimestamp millis p =>
    rw [runBy, answerBy, Timestamp.formatBy]
    cases Instant.ofMillis? millis with
    -- Nothing is converted for an instant that the calendar does not cover.
    | none => exact ⟨rfl, h⟩
    | some t =>
      obtain ⟨hp, hafter⟩ := hs.convert_eq h datepicker_mem_standard strftime_mem_standard p
      exact ⟨congrArg (Timestamp.fillBy fill? t) hp, hafter⟩

theorem runAllBy_eq (rs : List CachedRequest) :
    (runAllBy store fill? held rs).1 = rs.map (answerBy fill?) ∧
      Sound n (entries (runAllBy store fill? held rs).2) := by
  induction rs generalizing held with
  | nil => exact ⟨rfl, h⟩
  | cons r rs ih =>
    obtain ⟨hr, hafter⟩ := runBy_eq hs fill? h r
    obtain ⟨hrs, hend⟩ := ih hafter
    exact ⟨List.cons_eq_cons.2 ⟨hr, hrs⟩, hend⟩

end Store

/-- Sharing a store of recent conversions shows in no answer, and after every request the store holds
what belongs to its keys, no key twice and no more than it has room for. This holds of any such store
and any reader of specifiers, and so of the cache that requests are run with. -/
theorem answers_of_shared_cache :
    (∀ {σ : Type} (store : ConversionStore σ) (n : Nat) (entries : σ → List (ConversionKey × Text))
      (fill? : Instant → Text → Option Text), store.KeepsRecent n entries →
      ∀ rs : List CachedRequest, (runAllBy store fill? store.empty rs).1 = rs.map (answerBy fill?) ∧
        ∀ before, before <+: rs → Sound n (entries (runAllBy store fill? store.empty before).2)) ∧
    ∀ rs : List CachedRequest, (runAll .empty rs).1 = rs.map answer ∧
      ∀ before, before <+: rs → Sound capacity (runAll .empty before).2.entries := by
  refine ⟨fun store n entries fill? hs rs => ?_, fun rs => ?_⟩
  · have hempty : Sound n (entries store.empty) := hs.empty ▸ .nil
    have hrun := runAllBy_eq hs fill? hempty
    exact ⟨(hrun rs).1, fun before _ => (hrun before).2⟩
  · have hempty : Sound capacity ConversionCache.empty.entries := .nil
    have hrun := runAllBy_eq keepsRecent Instant.fill? hempty
    exact ⟨(hrun rs).1, fun before _ => (hrun before).2⟩

/-- One pattern for all three purposes and again for the first, which makes it the most recent. -/
theorem answers_of_shared_cache_same_pattern :
    let rs := [datepickerToMoment "D d".toList, momentToDatepicker "D d".toList, formatTimestamp 0 "D d".toList,
      datepickerToMoment "D d".toList]
    ConversionCache.store.KeepsRecent capacity ConversionCache.entries ∧
    (runAllBy ConversionCache.store Instant.fill? .empty rs).1 =
      ["ddd D".toList, "d' d'".toList, "Thu 1".toList, "ddd D".toList].map .ok ∧
    (runAll .empty rs).2.entries.map Prod.snd = ["ddd D".toList, "%a %-d".toList, "d' d'".toList] ∧
    rs.take 2 <+: rs ∧ Sound capacity (runAll .empty (rs.take 2)).2.entries := by
  intro rs
  have hbefore : rs.take 2 <+: rs := List.take_prefix 2 rs
  have hanswers := (answers_of_shared_cache.1 _ _ _ Instant.fill? keepsRecent rs).1
  exact ⟨keepsRecent, hanswers.trans (by with_unfolding_all decide), by with_unfolding_all decide, hbefore,
    (answers_of_shared_cache.2 rs).2 _ hbefore⟩

end CellFormat.CachedRequest
