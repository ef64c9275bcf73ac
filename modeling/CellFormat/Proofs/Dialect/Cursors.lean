import CellFormat.Proofs.Dialect.Neighbours
/-!
# Asking a cursor again and again

A cursor is asked for segments call by call. `answer_eq`: the answers are what
lies ahead of it, one after the other, and then none for good. Every answer uses
up some of the pattern (`length_segments_le`), so there are no more answers than
bytes.

Nothing is assumed of the dialect here. Spellings may be empty or equal, and a
recognizer may claim a region that ends inside a character or past the end; a
cursor that gets there has nothing ahead.
-/

namespace CellFormat

namespace Cursor

variable {d : Dialect} {p : Text}

/-! ## One call -/

/-- A cursor that has nothing to hand out has nothing ahead afterwards either. -/
theorem ahead_after_next_none {c c' : Cursor} (h : c.next d p = (none, c')) : c'.ahead d p = [] := by
  obtain ⟨i, _ | k⟩ := c
  · simp only [next] at h
    split at h
    · have hk : (d.run p i).token? = none := by simpa using congrArg Prod.fst h
      simp only [Prod.mk.injEq] at h
      obtain ⟨-, rfl⟩ := h
      simp [ahead, d.segmentsFrom_run_stop hk]
    · simp at h
  · simp [next] at h

/-- A call takes the first of the segments ahead. -/
theorem next_eq_head (c : Cursor) :
    (c.next d p).1 = (c.ahead d p).head? ∧ (c.next d p).2.ahead d p = (c.ahead d p).tail := by
  rcases h : c.next d p with ⟨_ | s, c'⟩
  · simp [ahead_of_next_none h, ahead_after_next_none h]
  · simp [ahead_of_next_some h]

/-! ## Call after call -/

/-- The cursor after `n` calls. -/
def afterCalls (d : Dialect) (pattern : Text) : (n : Nat) → Cursor → Cursor
  | 0, c => c
  | n + 1, c => afterCalls d pattern n (c.next d pattern).2

/-- What is answered after `n` calls. -/
def answer (d : Dialect) (pattern : Text) (n : Nat) (c : Cursor) : Option Segment :=
  ((c.afterCalls d pattern n).next d pattern).1

theorem ahead_afterCalls (n : Nat) (c : Cursor) : (c.afterCalls d p n).ahead d p = (c.ahead d p).drop n := by
  induction n generalizing c with
  | zero => rfl
  | succ n ih => rw [afterCalls, ih, (next_eq_head c).2, List.drop_tail]

theorem answer_eq (n : Nat) (c : Cursor) : c.answer d p n = (c.segments d p)[n]? := by
  rw [answer, (next_eq_head _).1, ahead_afterCalls, List.head?_drop, segments_eq_ahead]

theorem length_segments_le (c : Cursor) : (c.segments d p).length ≤ c.left p := by
  fun_induction Cursor.segments d p c with
  | case1 => simp
  | case2 c s c' h ih =>
    have := left_next_lt h
    rw [List.length_cons]
    omega

end Cursor

/-! ## Tokens that are met -/

theorem Segment.token_mem_gather {k : Token} {ss : List Segment} (h : .token k ∈ gather ss) : .token k ∈ ss := by
  induction ss with
  | nil => exact h
  | cons s ss ih =>
    cases s with
    | literal t =>
      -- Text in front changes no token.
      have hmem : .token k ∈ gather ss := by
        rw [gather_cons, join_literal] at h
        rcases hg : gather ss with _ | ⟨u | k', gs⟩ <;> by_cases ht : t = [] <;> simp_all [prepend]
      exact List.mem_cons_of_mem _ (ih hmem)
    | token k' =>
      rw [gather_cons, join_token, List.mem_cons] at h
      exact List.mem_cons.2 (h.imp id ih)

namespace Dialect

variable (d : Dialect) {p : Text} {k : Token}

theorem spell_ne_nil_of_mem_pieces {i : Nat} (h : .token k ∈ d.pieces p i) : d.spell k ≠ [] := by
  fun_induction d.pieces p i with
  | case1 => cases h
  | case2 i x n hx ih =>
    rcases List.mem_cons.1 h with rfl | h
    · obtain ⟨rest, -, hk⟩ := d.of_pieceAt?_token hx
      exact (d.matches_of_longestToken? hk).1.1
    · exact ih h

theorem spell_ne_nil_of_mem_segments (h : .token k ∈ d.segments p) : d.spell k ≠ [] := by
  rw [d.segments_eq_segmentsFrom, segmentsFrom] at h
  obtain ⟨x, hx, he⟩ := List.mem_map.1 (Segment.token_mem_gather h)
  cases x with
  | token k' =>
    cases he
    exact d.spell_ne_nil_of_mem_pieces hx
  | quoted => cases he
  | plain => cases he

/-- Call after call, a cursor hands out the segments of the pattern and then none for good. There are at most as
many as the pattern has bytes; none is empty text, no two texts follow each other, and a token is
one that the dialect spells. -/
theorem answers_of_any_dialect (d : Dialect) (p : Text) :
    (∀ n, Cursor.start.answer d p n = (d.segments p)[n]?) ∧
    (d.segments p).length ≤ p.bytes ∧
    (∀ t, .literal t ∈ d.segments p → t ≠ []) ∧
    (d.segments p).IsChain Segment.Separate ∧
    ∀ k, .token k ∈ d.segments p → d.spelling? k = some (d.spell k) ∧ d.spell k ≠ [] := by
  obtain ⟨hnonempty, hseparate⟩ := d.gathered_segments p
  refine ⟨fun n => Cursor.answer_eq n _, Cursor.length_segments_le _, ?_, hseparate, fun k hk => ?_⟩
  · rintro t ht rfl
    exact hnonempty ht
  · have hne := d.spell_ne_nil_of_mem_segments hk
    exact ⟨if_neg hne, hne⟩

end Dialect

end CellFormat
