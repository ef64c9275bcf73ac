import CellFormat.Proofs.Dialect.LongestToken
import CellFormat.Proofs.Dialect.Pieces
/-!
# Tokens side by side

A reader takes the longest token, so which tokens it can meet side by side is
not arbitrary: no spelling that the two make up together is longer than that of
the first (`Greedy`).

`isChain_segments`: all tokens that meet in the segments of a pattern are of
that kind. Regions without text are the exception, since they keep two tokens
apart and leave no trace in the segments.
-/

namespace CellFormat.Dialect

variable (d : Dialect)

/-- No spelling at the start of those of `k` and `k'` together is longer than that of `k`. -/
def Greedy (k k' : Token) : Prop :=
  ∀ k'', d.spell k'' <+: d.spell k ++ d.spell k' → (d.spell k'').bytes ≤ (d.spell k).bytes

instance (k k' : Token) : Decidable (d.Greedy k k') :=
  inferInstanceAs (Decidable (∀ k'', d.spell k'' <+: d.spell k ++ d.spell k' → (d.spell k'').bytes ≤ (d.spell k).bytes))

/-- If the spelling of `k` ends in front of that of `k'`, the two together begin with none that is longer. -/
theorem greedy_of_ends {k k' : Token} (h : d.Ends k (d.spell k')) : d.Greedy k k' := by
  intro k'' hp
  rcases Text.prefix_append_cases hp with ⟨u, hu⟩ | ⟨c, hc, hp⟩
  · rw [← hu, Text.bytes_append]
    omega
  · exact absurd hp (h c hc k'')

theorem of_pieceAt?_token {p : Text} {i : Nat} {k : Token} {n : Nat} (h : d.pieceAt? p i = some (.token k, n)) :
    ∃ rest, p.fromByte? i = some rest ∧ d.longestToken? rest = some (k, n) := by
  unfold pieceAt? at h
  split at h
  · cases h
  · cases h
  · next c rest hp =>
    refine ⟨c :: rest, hp, ?_⟩
    split at h
    · cases h
    · split at h
      · next hm =>
        cases h
        simpa [matchToken?, hp] using hm
      · cases h

/-- Of two tokens that stand side by side, the first was the longest there. -/
theorem greedy_of_pieceAt? {p : Text} {i : Nat} {k k' : Token} {n n' : Nat} (h : d.pieceAt? p i = some (.token k, n))
    (h' : d.pieceAt? p (i + n) = some (.token k', n')) : d.Greedy k k' := by
  obtain ⟨rest, hp, hk⟩ := d.of_pieceAt?_token h
  obtain ⟨rest', hp', hk'⟩ := d.of_pieceAt?_token h'
  obtain ⟨⟨-, u, rfl⟩, rfl, hmax⟩ := d.matches_of_longestToken? hk
  obtain ⟨⟨-, hpre⟩, -, -⟩ := d.matches_of_longestToken? hk'
  rw [Text.fromByte?_add hp, Text.fromByte?_append] at hp'
  cases hp'
  -- A spelling within the two also matched where the first was read.
  intro k'' hk''
  by_cases hne : d.spell k'' = []
  · simp [hne]
  · exact hmax k'' ⟨hne, hk''.trans ((List.prefix_append_right_inj _).2 hpre)⟩

theorem isChain_pieces (p : Text) (i : Nat) :
    ((d.pieces p i).map Piece.segment).IsChain (Segment.OnTokens d.Greedy) := by
  fun_induction d.pieces p i with
  | case1 => exact .nil
  | case2 i x n h ih =>
    refine List.isChain_cons.2 ⟨?_, ih⟩
    intro s hs
    rcases x with t | k | c
    · trivial
    · cases hx : d.pieceAt? p (i + n) with
      | none => simp [d.pieces_of_none hx] at hs
      | some y =>
        obtain ⟨y, m⟩ := y
        rw [d.pieces_of_some hx, List.map_cons, List.head?_cons, Option.mem_some_iff] at hs
        subst hs
        rcases y with t | k' | c
        · trivial
        · exact d.greedy_of_pieceAt? h hx
        · trivial
    · trivial

/-- Tokens that meet in the segments of a pattern have met in the pattern, if no region is empty. -/
theorem isChain_segments {p : Text} (h : Piece.quoted [] ∉ d.pieces p 0) :
    (d.segments p).IsChain (Segment.OnTokens d.Greedy) := by
  rw [d.segments_eq_segmentsFrom]
  refine Segment.isChain_gather ?_ (d.isChain_pieces p 0)
  intro hm
  obtain ⟨x, hx, he⟩ := List.mem_map.1 hm
  rcases x with t | k | c
  · cases he
    exact h hx
  · cases he
  · cases he

end CellFormat.Dialect
