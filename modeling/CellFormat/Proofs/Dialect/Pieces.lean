import CellFormat.Dialect.Segments
import Mathlib.Data.List.Chain
/-!
# Segments are gathered pieces

`pieces` lists what a pattern continues with at every position that a reader
comes to. `segments_eq_segmentsFrom`: the segments are the pieces with adjacent
literal text merged, whatever the dialect. A cursor only decides when merged
text is handed out, so facts about segments are facts about pieces and about
`gather`.
-/

namespace CellFormat

namespace Segment

/-! ## Merging literal text -/

/-- Literal text in front of segments. It becomes part of a literal that stands first. -/
def prepend (t : Text) : List Segment → List Segment
  | .literal u :: ss => .literal (t ++ u) :: ss
  | ss => if t = [] then ss else .literal t :: ss

/-- A segment in front of segments. -/
def join : Segment → List Segment → List Segment
  | .literal t, ss => prepend t ss
  | .token k, ss => .token k :: ss

/-- The segments with adjacent literals merged and empty ones left out. -/
def gather (ss : List Segment) : List Segment := ss.foldr join []

@[simp] theorem gather_nil : gather [] = [] := rfl

@[simp] theorem gather_cons (s : Segment) (ss : List Segment) : gather (s :: ss) = s.join (gather ss) := rfl

@[simp] theorem join_literal (t : Text) (ss : List Segment) : (literal t).join ss = prepend t ss := rfl

@[simp] theorem join_token (k : Token) (ss : List Segment) : (token k).join ss = .token k :: ss := rfl

@[simp] theorem prepend_empty (ss : List Segment) : prepend [] ss = ss := by
  rcases ss with _ | ⟨_ | _, ss⟩ <;> simp [prepend]

@[simp] theorem prepend_append (t u : Text) (ss : List Segment) : prepend t (prepend u ss) = prepend (t ++ u) ss := by
  rcases ss with _ | ⟨v | k, ss⟩
  · by_cases hu : u = [] <;> simp [prepend, hu]
  · simp [prepend]
  · by_cases hu : u = [] <;> simp [prepend, hu]

theorem prepend_cons (c : Char) (t : Text) (ss : List Segment) : prepend (c :: t) ss = prepend [c] (prepend t ss) := by
  rw [prepend_append, List.singleton_append]

/-- Text keeps to itself in front of a token, or of nothing. -/
theorem prepend_eq_cons {t : Text} {ss : List Segment} (ht : t ≠ []) (hs : ∀ u, .literal u ∉ ss.head?) :
    prepend t ss = .literal t :: ss := by
  rcases ss with _ | ⟨u | k, ss⟩
  · simp [prepend, ht]
  · simp at hs
  · simp [prepend, ht]

/-! ## Neighbours -/

/-- `R` for two tokens; nothing is asked of a literal. -/
def OnTokens (R : Token → Token → Prop) : Segment → Segment → Prop
  | .token k, .token k' => R k k'
  | _, _ => True

instance {R : Token → Token → Prop} [∀ k k', Decidable (R k k')] : DecidableRel (OnTokens R)
  | .token k, .token k' => inferInstanceAs (Decidable (R k k'))
  | .literal _, _ => .isTrue trivial
  | .token _, .literal _ => .isTrue trivial

theorem isChain_onTokens_imp {R S : Token → Token → Prop} (h : ∀ k k', R k k' → S k k') {ss : List Segment}
    (hc : ss.IsChain (OnTokens R)) : ss.IsChain (OnTokens S) := by
  refine hc.imp fun s s' hs => ?_
  cases s with
  | literal => trivial
  | token k =>
    cases s' with
    | literal => trivial
    | token k' => exact h k k' hs

/-- Not both are literals. -/
def Separate : Segment → Segment → Prop
  | .literal _, .literal _ => False
  | _, _ => True

/-- No literal is empty, and none follows another. -/
structure Gathered (ss : List Segment) : Prop where
  nonempty : .literal [] ∉ ss
  separate : ss.IsChain Separate

theorem gathered_token_iff {k : Token} {ss : List Segment} : Gathered (.token k :: ss) ↔ Gathered ss := by
  constructor
  · rintro ⟨hn, hs⟩
    exact ⟨fun h => hn (List.mem_cons_of_mem _ h), hs.tail⟩
  · rintro ⟨hn, hs⟩
    exact ⟨by simpa using hn, List.isChain_cons.2 ⟨fun _ _ => trivial, hs⟩⟩

theorem gathered_literal_iff {t : Text} {ss : List Segment} :
    Gathered (.literal t :: ss) ↔ t ≠ [] ∧ (∀ u, .literal u ∉ ss.head?) ∧ Gathered ss := by
  constructor
  · rintro ⟨hn, hs⟩
    refine ⟨?_, fun u hu => (List.isChain_cons.1 hs).1 _ hu, fun h => hn (List.mem_cons_of_mem _ h), hs.tail⟩
    rintro rfl
    exact hn List.mem_cons_self
  · rintro ⟨ht, hu, hn, hs⟩
    refine ⟨by simpa [Ne.symm ht] using hn, List.isChain_cons.2 ⟨?_, hs⟩⟩
    rintro (u | k) h
    · exact hu u h
    · trivial

theorem gathered_prepend (t : Text) {ss : List Segment} (h : Gathered ss) : Gathered (prepend t ss) := by
  by_cases ht : t = []
  · simpa [ht] using h
  · rcases ss with _ | ⟨u | k, ss⟩
    · rw [prepend_eq_cons ht (by simp)]
      exact gathered_literal_iff.2 ⟨ht, by simp, h⟩
    · obtain ⟨-, hu, hss⟩ := gathered_literal_iff.1 h
      exact gathered_literal_iff.2 ⟨by simp [ht], hu, hss⟩
    · rw [prepend_eq_cons ht (by simp)]
      exact gathered_literal_iff.2 ⟨ht, by simp, h⟩

theorem gathered_gather (ss : List Segment) : Gathered (gather ss) := by
  induction ss with
  | nil => exact ⟨by simp, .nil⟩
  | cons s ss ih =>
    cases s with
    | literal t => exact gathered_prepend t ih
    | token k => exact gathered_token_iff.2 ih

theorem isChain_prepend {R : Token → Token → Prop} (t : Text) {ss : List Segment} (h : ss.IsChain (OnTokens R)) :
    (prepend t ss).IsChain (OnTokens R) := by
  by_cases ht : t = []
  · simpa [ht] using h
  · rcases ss with _ | ⟨u | k, ss⟩
    · simp [prepend, ht]
    · exact List.isChain_cons.2 ⟨fun _ _ => trivial, h.tail⟩
    · rw [prepend_eq_cons ht (by simp)]
      exact List.isChain_cons.2 ⟨fun _ _ => trivial, h⟩

/-- Gathered segments are left as they are. -/
theorem gather_of_gathered {ss : List Segment} (h : Gathered ss) : gather ss = ss := by
  induction ss with
  | nil => rfl
  | cons s ss ih =>
    cases s with
    | literal t =>
      obtain ⟨ht, hu, hss⟩ := gathered_literal_iff.1 h
      rw [gather_cons, ih hss, join_literal, prepend_eq_cons ht hu]
    | token k => rw [gather_cons, ih (gathered_token_iff.1 h), join_token]

section

variable {f : Segment → Text} (hf : ∀ t u, f (.literal (t ++ u)) = f (.literal t) ++ f (.literal u))
include hf

theorem flatMap_prepend (t : Text) (ss : List Segment) :
    (prepend t ss).flatMap f = f (.literal t) ++ ss.flatMap f := by
  have hempty : f (.literal []) = [] := by simpa using hf [] []
  rcases ss with _ | ⟨u | k, ss⟩
  · by_cases ht : t = [] <;> simp [prepend, ht, hempty]
  · simp [prepend, hf]
  · by_cases ht : t = [] <;> simp [prepend, ht, hempty]

/-- Gathering keeps the text that is made of the segments, if merged literals make the text that the parts make. -/
theorem flatMap_gather (ss : List Segment) : (gather ss).flatMap f = ss.flatMap f := by
  induction ss with
  | nil => rfl
  | cons s ss ih =>
    cases s with
    | literal t => rw [gather_cons, join_literal, flatMap_prepend hf, ih, List.flatMap_cons]
    | token k => rw [gather_cons, join_token, List.flatMap_cons, ih, List.flatMap_cons]

end

/-- A token at the head of gathered segments has been at their head before. -/
theorem head_of_gather {ss : List Segment} {k : Token} (hn : .literal [] ∉ ss) (h : .token k ∈ (gather ss).head?) :
    .token k ∈ ss.head? := by
  rcases ss with _ | ⟨t | k', ss⟩
  · simp at h
  · have ht : t ≠ [] := by
      rintro rfl
      exact hn List.mem_cons_self
    rcases hg : gather ss with _ | ⟨u | k', gs⟩ <;> simp [hg, prepend, ht] at h
  · exact h

/-- Where no literal is empty, tokens that meet after gathering have met before. -/
theorem isChain_gather {R : Token → Token → Prop} {ss : List Segment} (hn : .literal [] ∉ ss)
    (hc : ss.IsChain (OnTokens R)) : (gather ss).IsChain (OnTokens R) := by
  induction ss with
  | nil => exact .nil
  | cons s ss ih =>
    have hn' : .literal [] ∉ ss := fun h => hn (List.mem_cons_of_mem s h)
    have ih := ih hn' hc.tail
    cases s with
    | literal t => exact isChain_prepend t ih
    | token k =>
      refine List.isChain_cons.2 ⟨?_, ih⟩
      -- A literal between two tokens is not lost, so the next token was the next one before.
      rintro (u | k') hs
      · trivial
      · exact (List.isChain_cons.1 hc).1 _ (head_of_gather hn' hs)

end Segment

/-! ## The pieces of a pattern -/

/-- The segment that a piece is, or becomes a part of. -/
def Piece.segment : Piece → Segment
  | .quoted t => .literal t
  | .token k => .token k
  | .plain c => .literal [c]

namespace Dialect

variable (d : Dialect)

theorem of_pieceAt?_quoted {p t : Text} {i n : Nat} (h : d.pieceAt? p i = some (.quoted t, n)) :
    ∃ r, d.readRegion? p i = some r ∧ r.value = t ∧ r.bytes = n := by
  unfold pieceAt? at h
  split at h
  · cases h
  · cases h
  · split at h
    · next r hr =>
      cases h
      exact ⟨r, hr, rfl, rfl⟩
    · split at h <;> cases h

/-- The pieces from a position on. -/
def pieces (pattern : Text) (position : Nat) : List Piece :=
  match _ : d.pieceAt? pattern position with
  | none => []
  | some (x, n) => x :: pieces pattern (position + n)
termination_by pattern.bytes - position
decreasing_by have := d.lt_of_pieceAt? ‹_›; omega

theorem pieces_of_none {p : Text} {i : Nat} (h : d.pieceAt? p i = none) : d.pieces p i = [] := by
  unfold pieces
  split
  · rfl
  · simp_all

theorem pieces_of_some {p : Text} {i : Nat} {x : Piece} {n : Nat} (h : d.pieceAt? p i = some (x, n)) :
    d.pieces p i = x :: d.pieces p (i + n) := by
  rw [pieces]
  split
  · simp_all
  · next h' =>
    rw [h] at h'
    cases h'
    rfl

/-- The segments that the pieces from a position on make up. -/
def segmentsFrom (pattern : Text) (position : Nat) : List Segment :=
  Segment.gather ((d.pieces pattern position).map Piece.segment)

/-- A run is the text that the pieces begin with, and the token after it. -/
theorem segmentsFrom_eq_run (p : Text) (i : Nat) :
    d.segmentsFrom p i = Segment.prepend (d.run p i).text
      (((d.run p i).token?.map Segment.token).toList ++ d.segmentsFrom p (d.run p i).stop) := by
  unfold segmentsFrom
  fun_induction d.run p i with
  | case1 i h => simp
  | case2 i k n h => simp [d.pieces_of_some h, Piece.segment]
  | case3 i t n h ih => simp [d.pieces_of_some h, Piece.segment, ih, Run.after]
  | case4 i c n h ih => simp [d.pieces_of_some h, Piece.segment, ih, Run.after]

/-- A run without a token goes to the end. -/
theorem segmentsFrom_run_stop {p : Text} {i : Nat} (h : (d.run p i).token? = none) :
    d.segmentsFrom p (d.run p i).stop = [] := by
  unfold segmentsFrom
  fun_induction d.run p i with
  | case1 i hp => simp [d.pieces_of_none hp]
  | case2 => simp at h
  | case3 i t n hp ih => exact ih h
  | case4 i c n hp ih => exact ih h

end Dialect

namespace Cursor

variable {d : Dialect} {p : Text}

/-- What a cursor has still to hand out. -/
def ahead (d : Dialect) (pattern : Text) (c : Cursor) : List Segment :=
  (c.pending.map Segment.token).toList ++ d.segmentsFrom pattern c.position

theorem ahead_of_next_none {c c' : Cursor} (h : c.next d p = (none, c')) : c.ahead d p = [] := by
  obtain ⟨i, _ | k⟩ := c
  · simp only [next] at h
    split at h
    · next ht =>
      have hk : (d.run p i).token? = none := by simpa using congrArg Prod.fst h
      rw [ahead, d.segmentsFrom_eq_run, ht, hk, d.segmentsFrom_run_stop hk]
      rfl
    · simp at h
  · simp [next] at h

theorem ahead_of_next_some {c c' : Cursor} {s : Segment} (h : c.next d p = (some s, c')) :
    c.ahead d p = s :: c'.ahead d p := by
  obtain ⟨i, _ | k⟩ := c
  · simp only [next] at h
    split at h
    -- A run without text: its token is handed out at once.
    · next ht =>
      simp only [Prod.mk.injEq] at h
      obtain ⟨hs, rfl⟩ := h
      obtain ⟨k, hk, rfl⟩ := Option.map_eq_some_iff.1 hs
      simp [ahead, d.segmentsFrom_eq_run p i, ht, hk]
    -- The text is handed out, and the token behind it is pending.
    · next ht =>
      cases h
      have hhead : ∀ u, .literal u ∉ (ahead d p ⟨(d.run p i).stop, (d.run p i).token?⟩).head? := by
        cases hk : (d.run p i).token? with
        | none => simp [ahead, d.segmentsFrom_run_stop hk]
        | some k => simp [ahead]
      rw [← Segment.prepend_eq_cons ht hhead]
      exact d.segmentsFrom_eq_run p i
  · cases h
    rfl

theorem segments_eq_ahead (c : Cursor) : c.segments d p = c.ahead d p := by
  fun_induction Cursor.segments d p c with
  | case1 c c' h => rw [ahead_of_next_none h]
  | case2 c s c' h ih => rw [ahead_of_next_some h, ih]

end Cursor

/-- The segments of a pattern are its pieces, gathered. -/
theorem Dialect.segments_eq_segmentsFrom (d : Dialect) (p : Text) : d.segments p = d.segmentsFrom p 0 :=
  Cursor.segments_eq_ahead Cursor.start

theorem Dialect.gathered_segments (d : Dialect) (p : Text) : Segment.Gathered (d.segments p) := by
  rw [d.segments_eq_segmentsFrom]
  exact Segment.gathered_gather _

end CellFormat
