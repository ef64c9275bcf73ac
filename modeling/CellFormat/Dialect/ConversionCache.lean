import CellFormat.Dialect.Conversion
/-!
# A cache of converted patterns

Conversions that were asked for lately are kept. A conversion is known by its
pattern and the names of the two dialects. A store of conversions
(`ConversionStore`) is asked what it keeps under a key and told to keep a
pattern under a key; `ConversionStore.convert` needs no more.

`ConversionCache` is such a store: the conversions in a list, the most recent one
first. When it is full, the one that has gone unused the longest makes room.
-/

namespace CellFormat

/-- What a kept conversion is known by. -/
structure ConversionKey where
  pattern : Text
  source : Text
  dest : Text
  deriving DecidableEq, Repr

/-! ## Stores -/

/-- A store of conversions, with `σ` for what it may hold. Asking for a conversion is a use of it,
which the store may take note of. -/
structure ConversionStore (σ : Type) where
  empty : σ
  get : σ → ConversionKey → Option Text × σ
  put : σ → ConversionKey → Text → σ

/-- A pattern of one dialect as a pattern of another, kept or made now, and what the store holds
after that. -/
def ConversionStore.convert {σ : Type} (store : ConversionStore σ) (held : σ) (source dest : Dialect)
    (pattern : Text) : Text × σ :=
  let key : ConversionKey := { pattern, source := source.name, dest := dest.name }
  match store.get held key with
  | (some converted, held) => (converted, held)
  | (none, held) =>
    let converted := source.convert dest pattern
    (converted, store.put held key converted)

/-! ## The store of recent conversions -/

/-- Kept conversions, the most recently used first. -/
structure ConversionCache where
  entries : List (ConversionKey × Text)
  deriving DecidableEq, Repr

namespace ConversionCache

/-- The number of conversions that are kept. -/
def capacity : Nat := 100

/-- Nothing is kept yet. -/
def empty : ConversionCache := ⟨[]⟩

/-- The entries under other keys. -/
def others (entries : List (ConversionKey × Text)) (key : ConversionKey) : List (ConversionKey × Text) :=
  entries.filter fun e => e.1 ≠ key

/-- The pattern kept under a key, if there is one, which is then the most recently used one. -/
def get (cache : ConversionCache) (key : ConversionKey) : Option Text × ConversionCache :=
  match cache.entries.lookup key with
  | none => (none, cache)
  | some converted => (some converted, ⟨(key, converted) :: others cache.entries key⟩)

/-- Keeps a converted pattern as the most recently used one, in place of the one under the same
key if there is one, else in place of the least recently used one if the cache is full. -/
def put (cache : ConversionCache) (key : ConversionKey) (converted : Text) : ConversionCache :=
  ⟨((key, converted) :: others cache.entries key).take capacity⟩

/-- Caches as a store. -/
def store : ConversionStore ConversionCache := { empty, get, put }

end ConversionCache

end CellFormat
