import CellFormat.Calendar.Timestamp
import CellFormat.Dialect.ConversionCache
/-!
# Requests that share a cache

Patterns are converted between the dialects for three purposes, and one cache
serves them all. `answer` says what a request is answered without a cache, and
`run` what it is answered with one. Both are stated for any reader that fills
instants into patterns with specifiers, and `run` for any store of conversions.
-/

namespace CellFormat

/-- A request that a cache of converted patterns takes part in. -/
inductive CachedRequest where
  | datepickerToMoment (pattern : Text)
  | momentToDatepicker (pattern : Text)
  | formatTimestamp (millis : Int) (pattern : Text)
  deriving DecidableEq, Repr

namespace CachedRequest

/-- The answer to a request, each conversion made anew. -/
def answerBy (fill? : Instant → Text → Option Text) : CachedRequest → Except TimestampError Text
  | datepickerToMoment p => .ok (Dialect.datepicker.convert .moment p)
  | momentToDatepicker p => .ok (Dialect.moment.convert .datepicker p)
  | formatTimestamp millis p => Timestamp.formatBy fill? millis p

section Store

variable {σ : Type} (store : ConversionStore σ) (fill? : Instant → Text → Option Text)

/-- The answer to a request with the conversions in a store, and what the store holds after it. -/
def runBy (held : σ) : CachedRequest → Except TimestampError Text × σ
  | datepickerToMoment p =>
    let (converted, held) := store.convert held .datepicker .moment p
    (.ok converted, held)
  | momentToDatepicker p =>
    let (converted, held) := store.convert held .moment .datepicker p
    (.ok converted, held)
  | formatTimestamp millis p =>
    match Instant.ofMillis? millis with
    | none => (.error (.outOfRange millis), held)
    | some t =>
      let (specifiers, held) := store.convert held .datepicker .strftime p
      (Timestamp.fillBy fill? t specifiers, held)

/-- The answers to requests in order, and what the store holds after the last. -/
def runAllBy (held : σ) : List CachedRequest → List (Except TimestampError Text) × σ
  | [] => ([], held)
  | r :: rs =>
    let (answer, held) := runBy store fill? held r
    let (answers, held) := runAllBy held rs
    (answer :: answers, held)

end Store

/-- The answer to a request without a cache. -/
def answer : CachedRequest → Except TimestampError Text := answerBy Instant.fill?

/-- The answer to a request with a cache, and the cache after it. -/
def run (cache : ConversionCache) : CachedRequest → Except TimestampError Text × ConversionCache :=
  runBy ConversionCache.store Instant.fill? cache

/-- The answers to requests in order, and the cache after the last. -/
def runAll (cache : ConversionCache) :
    List CachedRequest → List (Except TimestampError Text) × ConversionCache :=
  runAllBy ConversionCache.store Instant.fill? cache

end CachedRequest

end CellFormat
