import CellFormat.Dialect.ConversionCache
import CellFormat.Dialect.Standard
import Mathlib.Data.List.Nodup
/-!
# A cache of conversions is sound

A store of conversions does its work if it keeps the most recently used ones.
`ConversionStore.KeepsRecent` says so by what each operation does to the list of
what is kept; `ConversionCache.keepsRecent` says that `ConversionCache` is such
a store.

All that is ever put into the store is made between standard dialects, and their
names tell these apart. So a key says which conversion belongs to it
(`ConversionKey.conversion?`), and `ConversionCache.Sound` is the invariant: what
is kept under a key is its conversion. `convert_eq` is the step: a conversion by
way of a sound store is the conversion, and the store stays sound.
-/

namespace CellFormat

/-! ## What a key stands for -/

namespace Dialect

/-- The dialects that conversions are kept of. -/
def standard : List Dialect := [moment, datepicker, strftime]

theorem moment_mem_standard : moment ∈ standard := .head _

theorem datepicker_mem_standard : datepicker ∈ standard := .tail _ (.head _)

theorem strftime_mem_standard : strftime ∈ standard := .tail _ (.tail _ (.head _))

/-- The standard dialect of a name. -/
def named? (name : Text) : Option Dialect := standard.find? (·.name = name)

theorem named?_name {d : Dialect} (h : d ∈ standard) : named? d.name = some d := by
  simp only [standard, List.mem_cons, List.not_mem_nil, or_false] at h
  rcases h with rfl | rfl | rfl <;> rfl

end Dialect

/-- The pattern that belongs to a key: its own one, converted between the standard dialects of the
two names. -/
def ConversionKey.conversion? (key : ConversionKey) : Option Text := do
  let source ← Dialect.named? key.source
  let dest ← Dialect.named? key.dest
  some (source.convert dest key.pattern)

theorem ConversionKey.conversion?_of_standard {source dest : Dialect} (hs : source ∈ Dialect.standard)
    (hd : dest ∈ Dialect.standard) (pattern : Text) :
    conversion? { pattern, source := source.name, dest := dest.name } = some (source.convert dest pattern) := by
  simp only [conversion?, Dialect.named?_name hs, Dialect.named?_name hd, Option.bind_eq_bind, Option.bind_some]

/-! ## What is kept -/

namespace ConversionCache

variable {n : Nat} {entries : List (ConversionKey × Text)} {key : ConversionKey} {converted : Text}

/-- There are at most `n` entries, no two of them under one key, and each is the pattern that
belongs to its key. -/
structure Sound (n : Nat) (entries : List (ConversionKey × Text)) : Prop where
  length_le : entries.length ≤ n
  distinct : (entries.map Prod.fst).Nodup
  converted : ∀ e ∈ entries, e.1.conversion? = some e.2

theorem mem_of_lookup (h : entries.lookup key = some converted) : (key, converted) ∈ entries := by
  obtain ⟨before, after, rfl, -⟩ := List.lookup_eq_some_iff.1 h
  simp

/-- Without the entry under a key there is room for another one. -/
theorem length_others_lt (h : entries.lookup key = some converted) : (others entries key).length < entries.length :=
  List.length_filter_lt_length_iff_exists.2 ⟨_, mem_of_lookup h, by simp⟩

namespace Sound

theorem nil : Sound n [] := ⟨Nat.zero_le n, List.nodup_nil, by simp⟩

theorem eq_of_lookup (h : Sound n entries) {c : Text} (hc : key.conversion? = some c)
    (hl : entries.lookup key = some converted) : converted = c :=
  Option.some.inj ((h.converted _ (mem_of_lookup hl)).symm.trans hc)

/-- What belongs to a key can be put in front of the entries under other keys. -/
theorem cons_others (h : Sound n entries) (hc : key.conversion? = some converted) :
    Sound (n + 1) ((key, converted) :: others entries key) where
  length_le := Nat.succ_le_succ (Nat.le_trans (List.length_filter_le _ _) h.length_le)
  distinct := by
    rw [List.map_cons, List.nodup_cons]
    constructor
    · simp [others]
    · exact h.distinct.sublist (List.filter_sublist.map _)
  converted e he := by
    rcases List.mem_cons.1 he with rfl | he
    · exact hc
    · exact h.converted e (List.mem_filter.1 he).1

theorem use (h : Sound n entries) (hl : entries.lookup key = some converted) :
    Sound n ((key, converted) :: others entries key) := by
  have hfront := h.cons_others (h.converted _ (mem_of_lookup hl))
  exact ⟨Nat.le_trans (length_others_lt hl) h.length_le, hfront.distinct, hfront.converted⟩

theorem put (h : Sound n entries) (hc : key.conversion? = some converted) :
    Sound n (((key, converted) :: others entries key).take n) where
  length_le := List.length_take_le _ _
  distinct := (h.cons_others hc).distinct.sublist ((List.take_sublist _ _).map _)
  converted e he := (h.cons_others hc).converted e (List.mem_of_mem_take he)

end Sound

end ConversionCache

/-! ## Stores of recent conversions -/

namespace ConversionStore

open ConversionCache

/-- The store keeps `n` conversions, and `entries` lists them, the most recently used one first. To
ask for one and to put one in are its uses, and where there is no room the last one goes. -/
structure KeepsRecent {σ : Type} (store : ConversionStore σ) (n : Nat)
    (entries : σ → List (ConversionKey × Text)) : Prop where
  empty : entries store.empty = []
  found : ∀ held key, (store.get held key).1 = (entries held).lookup key
  used : ∀ held key converted, (entries held).lookup key = some converted →
    entries (store.get held key).2 = (key, converted) :: others (entries held) key
  unused : ∀ held key, (entries held).lookup key = none → entries (store.get held key).2 = entries held
  put : ∀ held key converted,
    entries (store.put held key converted) = ((key, converted) :: others (entries held) key).take n

variable {σ : Type} {store : ConversionStore σ} {n : Nat} {entries : σ → List (ConversionKey × Text)}

/-- A sound store converts as if nothing were kept, and it stays sound. -/
theorem KeepsRecent.convert_eq (hs : store.KeepsRecent n entries) {held : σ} (h : Sound n (entries held))
    {source dest : Dialect} (hsource : source ∈ Dialect.standard) (hdest : dest ∈ Dialect.standard) (pattern : Text) :
    (store.convert held source dest pattern).1 = source.convert dest pattern ∧
      Sound n (entries (store.convert held source dest pattern).2) := by
  have hc := ConversionKey.conversion?_of_standard hsource hdest pattern
  generalize hkey : ConversionKey.mk pattern source.name dest.name = key at hc
  have hfound := hs.found held key
  have hused := hs.used held key
  have hunused := hs.unused held key
  rw [convert, hkey]
  generalize store.get held key = got at hfound hused hunused
  obtain ⟨kept?, after⟩ := got
  cases kept? with
  -- What is found is no other than the conversion, since both belong to the key.
  | some converted =>
    have hl := hfound.symm
    refine ⟨h.eq_of_lookup hc hl, ?_⟩
    rw [hused converted hl]
    exact h.use hl
  | none =>
    have hl := hunused hfound.symm
    refine ⟨rfl, ?_⟩
    rw [hs.put, hl]
    exact h.put hc

end ConversionStore

theorem ConversionCache.keepsRecent : store.KeepsRecent capacity entries where
  empty := rfl
  found held key := by
    simp only [store, get]
    cases held.entries.lookup key <;> rfl
  used held key converted h := by simp only [store, get, h]
  unused held key h := by simp only [store, get, h]
  put held key converted := rfl

end CellFormat
