import CellFormat.Dialect.Basic
/-!
# Reading a pattern

At every position a pattern continues with a piece: a quoted region if the
dialect recognizes one, else the longest token, else a single character. A
cursor walks over the pieces and hands out segments; literal text that follows
literal text, quoted or not, is part of the same segment.

`left_next_lt` is why reading ends: a cursor that hands out a segment has less
of the pattern left, whatever the dialect's recognizer claims.
-/

namespace CellFormat

/-- What a pattern continues with at a position. -/
inductive Piece where
  | quoted (value : Text)
  | token (kind : Token)
  | plain (c : Char)
  deriving DecidableEq, Repr

namespace Dialect

variable (d : Dialect)

/-- The piece at a position and the bytes it takes up; none at the end of the pattern,
past it, or inside a character. -/
def pieceAt? (pattern : Text) (position : Nat) : Option (Piece × Nat) :=
  match pattern.fromByte? position with
  | none | some [] => none
  | some (c :: _) =>
    match d.readRegion? pattern position with
    | some r => some (.quoted r.value, r.bytes)
    | none =>
      match d.matchToken? pattern position with
      | some (k, n) => some (.token k, n)
      | none => some (.plain c, c.utf8Size)

theorem lt_of_pieceAt? {p : Text} {i : Nat} {w : Piece} {n : Nat}
    (h : d.pieceAt? p i = some (w, n)) : i < Text.bytes p ∧ 0 < n := by
  unfold pieceAt? at h
  split at h
  · cases h
  · cases h
  · next c rest hr =>
    have hb := Text.bytes_of_fromByte? hr
    have hc := c.utf8Size_pos
    refine ⟨by simp only [Text.bytes_cons] at hb; omega, ?_⟩
    split at h
    · next r hq => cases h; exact d.readRegion?_pos hq
    · split at h
      · next hm => cases h; exact d.matchToken?_pos hm
      · cases h; exact hc

/-! ## Runs of literal text -/

/-- Literal text, the token that ends it, and the position after that token. Without a
token the text is ended by the end of the pattern. -/
structure Run where
  text : Text
  token? : Option Token
  stop : Nat
  deriving DecidableEq, Repr

/-- The run with `text` in front. -/
def Run.after (text : Text) (r : Run) : Run := { r with text := text ++ r.text }

/-- The run from a position on. -/
def run (pattern : Text) (position : Nat) : Run :=
  match _ : d.pieceAt? pattern position with
  | none => { text := [], token? := none, stop := position }
  | some (.token k, n) => { text := [], token? := some k, stop := position + n }
  | some (.quoted value, n) => (run pattern (position + n)).after value
  | some (.plain c, n) => (run pattern (position + n)).after [c]
termination_by pattern.bytes - position
decreasing_by all_goals have := d.lt_of_pieceAt? ‹_›; omega

/-- A run ends past its start if there is anything in it; text before its token lies
before the token. -/
theorem run_stop (p : Text) (i : Nat) :
    i ≤ (d.run p i).stop ∧
    ((d.run p i).text ≠ [] → i < (d.run p i).stop ∧ i < Text.bytes p) ∧
    ((d.run p i).token?.isSome → ∃ j, i ≤ j ∧ j < Text.bytes p ∧ j < (d.run p i).stop ∧
      ((d.run p i).text ≠ [] → i < j)) := by
  fun_induction d.run p i with
  | case1 i h => simp
  | case2 i k n h => exact ⟨by simp, by simp, fun _ => ⟨i, by have := d.lt_of_pieceAt? h; simp_all⟩⟩
  | case3 i value n h ih =>
    have hn := d.lt_of_pieceAt? h
    simp only [Run.after]
    refine ⟨by omega, fun _ => by omega, fun ht => ?_⟩
    obtain ⟨j, hj⟩ := ih.2.2 ht
    exact ⟨j, by omega, by omega, by omega, fun _ => by omega⟩
  | case4 i c n h ih =>
    have hn := d.lt_of_pieceAt? h
    simp only [Run.after]
    refine ⟨by omega, fun _ => by omega, fun ht => ?_⟩
    obtain ⟨j, hj⟩ := ih.2.2 ht
    exact ⟨j, by omega, by omega, by omega, fun _ => by omega⟩

end Dialect

/-! ## Cursors -/

/-- Where the reading of a pattern stands: a byte position, and a token that was met at
the end of literal text and is still to be handed out. -/
structure Cursor where
  position : Nat
  pending : Option Token
  deriving DecidableEq, Repr

namespace Cursor

/-- The cursor at the start of a pattern. -/
def start : Cursor := { position := 0, pending := none }

/-- The next segment, if there is one, and the cursor after it. -/
def next (d : Dialect) (pattern : Text) (c : Cursor) : Option Segment × Cursor :=
  match c.pending with
  | some k => (some (.token k), { c with pending := none })
  | none =>
    let r := d.run pattern c.position
    if r.text = [] then (r.token?.map .token, { position := r.stop, pending := none })
    else (some (.literal r.text), { position := r.stop, pending := r.token? })

/-- The bytes of the pattern that are still to be read, and one for a pending token. -/
def left (pattern : Text) (c : Cursor) : Nat :=
  pattern.bytes - c.position + if c.pending.isSome then 1 else 0

theorem left_next_lt {d : Dialect} {p : Text} {c c' : Cursor} {s : Segment}
    (h : c.next d p = (some s, c')) : c'.left p < c.left p := by
  obtain ⟨i, pending⟩ := c
  unfold next at h
  cases pending with
  | some k => cases h; simp [left]
  | none =>
    have hr := d.run_stop p i
    simp only at h
    split at h
    · next ht =>
      cases hk : (d.run p i).token? with
      | none => simp [hk] at h
      | some k =>
        obtain ⟨j, hj⟩ := hr.2.2 (by simp [hk])
        simp only [hk, Option.map_some, Prod.mk.injEq, Option.some.injEq] at h
        obtain ⟨-, rfl⟩ := h
        simp only [left, Option.isSome_none, Bool.false_eq_true, if_false]
        omega
    · next ht =>
      have h1 := hr.2.1 ht
      cases h
      simp only [left, Option.isSome_none, Bool.false_eq_true, if_false]
      cases hk : (d.run p i).token? with
      | none => simp; omega
      | some k =>
        obtain ⟨j, hj⟩ := hr.2.2 (by simp [hk])
        have := hj.2.2.2 ht
        simp
        omega

/-- All segments from a cursor on. -/
def segments (d : Dialect) (pattern : Text) (c : Cursor) : List Segment :=
  match _ : c.next d pattern with
  | (none, _) => []
  | (some s, c') => s :: segments d pattern c'
termination_by c.left pattern
decreasing_by exact left_next_lt ‹_›

end Cursor

/-- The segments of a pattern. -/
def Dialect.segments (d : Dialect) (pattern : Text) : List Segment :=
  Cursor.start.segments d pattern

end CellFormat
