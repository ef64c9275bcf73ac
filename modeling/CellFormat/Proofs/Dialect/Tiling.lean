import CellFormat.Proofs.Dialect.ApostropheRegions
import CellFormat.Proofs.Dialect.Neighbours
/-!
# Patterns as tilings

A pattern can be laid out with tiles, each a stretch of it together with what
the stretch is read as. `Fits` says which tile lies at a position without saying
how a reader finds it: the quoted region there, where there is none the longest
spelling, and where there is neither a single character.

A recognizer may claim any number of bytes, so not every dialect can be tiled.
Where regions are stretches of the pattern (`Bounded`), as those of the standard
recognizers are, every pattern has a tiling (`exists_tiling`), and a tiling lists
the pieces that a reader meets (`Tiling.pieces_eq`).
-/

namespace CellFormat

/-- A stretch of a pattern, and what it is read as. -/
structure Tile where
  text : Text
  piece : Piece
  deriving DecidableEq, Repr

namespace Dialect

variable (d : Dialect) {p rest : Text} {i : Nat} {t : Tile} {ts : List Tile}

/-! ## Tiles -/

/-- The tile that lies at a position of a pattern where `rest` stands. -/
inductive Fits (pattern : Text) (position : Nat) (rest : Text) : Tile → Prop
  | region {w value : Text} : d.readRegion? pattern position = some { value, bytes := w.bytes } →
      Fits pattern position rest ⟨w, .quoted value⟩
  | spelling {k : Token} : d.readRegion? pattern position = none →
      d.IsLongest rest Token.all (some (k, (d.spell k).bytes)) → Fits pattern position rest ⟨d.spell k, .token k⟩
  | character {c : Char} : d.readRegion? pattern position = none → d.IsLongest rest Token.all none →
      Fits pattern position rest ⟨[c], .plain c⟩

/-- Tiles from a position on, each where the one before it ends and the last at the end of the pattern. -/
inductive Tiling (pattern : Text) : (position : Nat) → List Tile → Prop
  | done {i : Nat} : pattern.fromByte? i = some [] → Tiling pattern i []
  | tile {i : Nat} {t : Tile} {ts : List Tile} (rest : Text) : pattern.fromByte? i = some (t.text ++ rest) →
      d.Fits pattern i (t.text ++ rest) t → Tiling pattern (i + t.text.bytes) ts → Tiling pattern i (t :: ts)

variable {d}

theorem Fits.text_ne_nil (h : d.Fits p i rest t) : t.text ≠ [] := by
  cases h with
  | region hr =>
    rintro rfl
    exact absurd (d.readRegion?_pos hr) (Nat.lt_irrefl 0)
  | spelling _ hk => exact hk.1.1
  | character => exact List.cons_ne_nil _ _

/-- The tile that fits is the piece that is read. -/
theorem pieceAt?_of_fits (hp : p.fromByte? i = some (t.text ++ rest)) (h : d.Fits p i (t.text ++ rest) t) :
    d.pieceAt? p i = some (t.piece, t.text.bytes) := by
  have hne := h.text_ne_nil
  have hm : d.matchToken? p i = d.longestToken? (t.text ++ rest) := by rw [matchToken?, hp, Option.bind_some]
  obtain ⟨c, w, hw⟩ := List.exists_cons_of_ne_nil hne
  rw [hw, List.cons_append] at hp
  rw [pieceAt?, hp]
  cases h with
  | region hr => simp only [hr]
  | spelling hr hk => simp only [hr, hm, d.longestToken?_eq_iff.2 hk]
  | character hr hk =>
    cases hw
    simp only [hr, hm, d.longestToken?_eq_iff.2 hk, Text.bytes_cons, Text.bytes_nil, Nat.add_zero]

theorem Tiling.pieces_eq (h : d.Tiling p i ts) : d.pieces p i = ts.map Tile.piece := by
  induction h with
  | done hp => rw [d.pieces_of_none (by rw [pieceAt?, hp]), List.map_nil]
  | tile rest hp hf _ ih => rw [d.pieces_of_some (pieceAt?_of_fits hp hf), ih, List.map_cons]

/-- Tiles make up what stands at their position. -/
theorem Tiling.fromByte? (h : d.Tiling p i ts) : p.fromByte? i = some (ts.flatMap Tile.text) := by
  induction h with
  | done hp => exact hp
  | @tile i t ts rest hp _ _ ih =>
    rw [Text.fromByte?_add hp, Text.fromByte?_append, Option.some.injEq] at ih
    rw [hp, ih, List.flatMap_cons]

theorem Tiling.text_ne_nil (h : d.Tiling p i ts) : ∀ t ∈ ts, t.text ≠ [] := by
  induction h with
  | done => simp
  | tile _ _ hf _ ih => exact List.forall_mem_cons.2 ⟨hf.text_ne_nil, ih⟩

/-! ## Every pattern has a tiling -/

variable (d) in
/-- Every region is a stretch of the pattern. -/
def Bounded : Prop := ∀ p i r, d.readRegion? p i = some r →
  ∃ w rest, p.fromByte? i = some (w ++ rest) ∧ w.bytes = r.bytes

/-- The piece that is read fits as a tile. -/
theorem Bounded.fits_of_pieceAt? (hd : d.Bounded) {x : Piece} {n : Nat} (h : d.pieceAt? p i = some (x, n)) :
    ∃ w rest, p.fromByte? i = some (w ++ rest) ∧ w.bytes = n ∧ d.Fits p i (w ++ rest) ⟨w, x⟩ := by
  unfold pieceAt? at h
  split at h
  · cases h
  · cases h
  · next c u hp =>
    split at h
    · next r hr =>
      cases h
      obtain ⟨w, rest, hw, hn⟩ := hd p i r hr
      exact ⟨w, rest, hw, hn, .region (by rw [hr, hn])⟩
    · next hr =>
      rw [matchToken?, hp, Option.bind_some] at h
      have hl := d.isLongest_longestToken? (c :: u)
      split at h
      · next k n hk =>
        cases h
        rw [hk] at hl
        obtain ⟨⟨-, rest, hrest⟩, rfl, -⟩ := id hl
        rw [← hrest] at hp hl
        exact ⟨d.spell k, rest, hp, rfl, .spelling hr hl⟩
      · next hk =>
        cases h
        rw [hk] at hl
        exact ⟨[c], u, hp, by simp, .character hr hl⟩

theorem Bounded.exists_tiling (hd : d.Bounded) (hp : p.fromByte? i = some rest) : ∃ ts, d.Tiling p i ts := by
  fun_induction d.pieces p i generalizing rest with
  | case1 i h =>
    cases rest with
    | nil => exact ⟨[], .done hp⟩
    | cons c rest =>
      -- Where a character stands, a piece is read.
      rw [pieceAt?, hp] at h
      simp only at h
      split at h
      · cases h
      · split at h <;> cases h
  | case2 i x n h ih =>
    obtain ⟨w, rest', hw, rfl, hf⟩ := hd.fits_of_pieceAt? h
    have hnext : p.fromByte? (i + w.bytes) = some rest' := by rw [Text.fromByte?_add hw, Text.fromByte?_append]
    obtain ⟨ts, hts⟩ := ih hnext
    exact ⟨⟨w, x⟩ :: ts, .tile rest' hw hf hts⟩

/-! ## The standard recognizers -/

theorem bounded_of_atPosition {region? : Text → Option Region} (hr : d.recognize = Quoting.atPosition region?)
    (h : ∀ t r, region? t = some r → ∃ w rest, t = w ++ rest ∧ w.bytes = r.bytes) : d.Bounded := by
  intro p i r hread
  rw [readRegion?, hr, Quoting.atPosition] at hread
  obtain ⟨t, ht, hreg⟩ := Option.bind_eq_some_iff.1 (Option.filter_eq_some_iff.1 hread).1
  obtain ⟨w, rest, rfl, hw⟩ := h t r hreg
  exact ⟨w, rest, ht, hw⟩

end Dialect

namespace Quoting

theorem Bracket.exists_append_of_region? (t : Text) (r : Region) (h : region? t = some r) :
    ∃ w rest, t = w ++ rest ∧ w.bytes = r.bytes := by
  unfold region? at h
  split at h
  · next body =>
    obtain ⟨⟨value, rest⟩, hs, rfl⟩ := Option.map_eq_some_iff.1 h
    refine ⟨'[' :: value ++ [']'], rest, by simp [Text.eq_append_of_splitFirst? hs], ?_⟩
    have hmarks : '['.utf8Size = 1 ∧ ']'.utf8Size = 1 := by decide
    simp only [List.cons_append, Text.bytes_cons, Text.bytes_append, Text.bytes_nil, hmarks]
    omega
  · cases h

theorem Apostrophe.exists_append_of_region? (t : Text) (r : Region) (h : region? t = some r) :
    ∃ w rest, t = w ++ rest ∧ w.bytes = r.bytes := by
  obtain ⟨w, rest, hw, hb, -⟩ := region?_eq_some_iff.1 h
  exact ⟨w, rest, hw, hb⟩

theorem Percent.exists_append_of_region? (t : Text) (r : Region) (h : region? t = some r) :
    ∃ w rest, t = w ++ rest ∧ w.bytes = r.bytes := by
  unfold region? at h
  split at h
  · next rest =>
    cases h
    exact ⟨['%', '%'], rest, rfl, by decide⟩
  · cases h

end Quoting

namespace Dialect

variable {d : Dialect}

/-- The recognizers of the standard dialects, and the one that recognizes nothing. -/
def standardRecognizers : List (Text → Nat → Option Region) :=
  [moment.recognize, datepicker.recognize, strftime.recognize, fun _ _ => none]

theorem bounded_of_standard (h : d.recognize ∈ standardRecognizers) : d.Bounded := by
  simp only [standardRecognizers, List.mem_cons, List.not_mem_nil, or_false] at h
  rcases h with h | h | h | h
  · exact bounded_of_atPosition h Quoting.Bracket.exists_append_of_region?
  · exact bounded_of_atPosition h Quoting.Apostrophe.exists_append_of_region?
  · exact bounded_of_atPosition h Quoting.Percent.exists_append_of_region?
  · intro p i r hr
    rw [readRegion?, h] at hr
    cases hr

/-! ## Patterns without regions -/

/-- The text of a literal and the spelling of a token. -/
def spelled (d : Dialect) : Segment → Text
  | .literal t => t
  | .token k => d.spell k

/-- A tile that is no region has the text that its segment is spelled with. -/
theorem Fits.spelled_segment {p rest : Text} {i : Nat} {t : Tile} (h : d.Fits p i rest t)
    (hq : ∀ v, t.piece ≠ .quoted v) : d.spelled t.piece.segment = t.text := by
  cases h with
  | region => exact absurd rfl (hq _)
  | spelling => rfl
  | character => rfl

theorem Tiling.flatMap_spelled {p : Text} {i : Nat} {ts : List Tile} (h : d.Tiling p i ts)
    (hq : ∀ t ∈ ts, ∀ v, t.piece ≠ .quoted v) :
    (ts.map fun t => t.piece.segment).flatMap d.spelled = ts.flatMap Tile.text := by
  induction h with
  | done => rfl
  | @tile i t ts rest _ hf _ ih =>
    obtain ⟨ht, hts⟩ := List.forall_mem_cons.1 hq
    rw [List.map_cons, List.flatMap_cons, List.flatMap_cons, hf.spelled_segment ht, ih hts]

/-! ## Segments and tiles -/

/-- Every pattern has a tiling, whatever the spellings. Its tiles are not empty and make up the pattern,
and the segments are what the tiles are read as, with literal text that touches merged. Without regions
the pattern is what its segments spell. -/
theorem segments_of_tiling (d : Dialect) (hd : d.recognize ∈ standardRecognizers) (p : Text) :
    (∃ ts, d.Tiling p 0 ts) ∧
    ∀ ts, d.Tiling p 0 ts →
      (∀ t ∈ ts, t.text ≠ []) ∧ ts.flatMap Tile.text = p ∧
      d.segments p = Segment.gather (ts.map fun t => t.piece.segment) ∧
      ((∀ t ∈ ts, ∀ v, t.piece ≠ .quoted v) → (d.segments p).flatMap d.spelled = p) := by
  refine ⟨(bounded_of_standard hd).exists_tiling (Text.fromByte?_zero p), fun ts hts => ?_⟩
  have hconcat : ts.flatMap Tile.text = p := by simpa using hts.fromByte?.symm
  have hsegments : d.segments p = Segment.gather (ts.map fun t => t.piece.segment) := by
    rw [d.segments_eq_segmentsFrom, segmentsFrom, hts.pieces_eq, List.map_map]
    rfl
  refine ⟨hts.text_ne_nil, hconcat, hsegments, fun hq => ?_⟩
  rw [hsegments, Segment.flatMap_gather fun _ _ => rfl, hts.flatMap_spelled hq, hconcat]

/-- A region without text, one that is never closed, and a character of two bytes. -/
theorem segments_of_tiling_open_region :
    datepicker.recognize ∈ standardRecognizers ∧
      datepicker.segments "é''ddo'd".toList =
        [.literal "é".toList, .token .dayOfMonthPadded, .token .dayOfYear, .literal "d".toList] := by
  have hd : datepicker.recognize ∈ standardRecognizers := by simp [standardRecognizers]
  have htiling : datepicker.Tiling "é''ddo'd".toList 0
      [⟨"é".toList, .plain 'é'⟩, ⟨"''".toList, .quoted []⟩, ⟨"dd".toList, .token .dayOfMonthPadded⟩,
        ⟨"o".toList, .token .dayOfYear⟩, ⟨"'d".toList, .quoted "d".toList⟩] := by
    refine .tile "''ddo'd".toList (by decide) (.character (by decide) ?_) ?_
    · exact datepicker.longestToken?_eq_iff.1 (by decide)
    refine .tile "ddo'd".toList (by decide) (.region (by decide)) ?_
    refine .tile "o'd".toList (by decide) (.spelling (k := .dayOfMonthPadded) (by decide) ?_) ?_
    · exact datepicker.longestToken?_eq_iff.1 (by decide)
    refine .tile "'d".toList (by decide) (.spelling (k := .dayOfYear) (by decide) ?_) ?_
    · exact datepicker.longestToken?_eq_iff.1 (by decide)
    refine .tile [] (by decide) (.region (by decide)) ?_
    exact .done (by decide)
  obtain ⟨-, -, hsegments, -⟩ := (segments_of_tiling datepicker hd "é''ddo'd".toList).2 _ htiling
  exact ⟨hd, hsegments.trans (by decide)⟩

end Dialect

end CellFormat
