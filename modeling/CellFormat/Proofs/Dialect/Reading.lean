import CellFormat.Dialect.Quoting
import CellFormat.Proofs.Dialect.LongestToken
import CellFormat.Proofs.Dialect.Pieces
/-!
# Reading what was written

A pattern is written as one text behind the other, and what a text is read as
can depend on the texts behind it. `Reads` is reading with the rest of the
pattern in place: each piece is the piece in front of what really follows, so
that a pattern can be read off from its end, text by text.

`segments_of_reads`: what is read in this way are the segments, for a dialect
that recognizes a region by the text from its position on.
-/

namespace CellFormat.Dialect

variable (d : Dialect)

/-- A region is recognized by the text from its start on, wherever that is. -/
def Local : Prop := ∀ p i, d.recognize p i = (Text.fromByte? p i).bind fun rest => d.recognize rest 0

variable {d} in
theorem local_of_atPosition {region? : Text → Option Region} (hr : d.recognize = Quoting.atPosition region?) :
    d.Local := by
  intro p i
  simp only [hr, Quoting.atPosition, Text.fromByte?_zero, Option.bind_some]

theorem pieceAt?_of_fromByte? (hd : d.Local) {p rest : Text} {i : Nat} (h : p.fromByte? i = some rest) :
    d.pieceAt? p i = d.pieceAt? rest 0 := by
  have hr : d.readRegion? p i = d.readRegion? rest 0 := by
    rw [readRegion?, readRegion?, hd p i, h, Option.bind_some]
  have hm : d.matchToken? p i = d.matchToken? rest 0 := by
    rw [matchToken?, matchToken?, h, Text.fromByte?_zero]
  rw [pieceAt?, pieceAt?, h, Text.fromByte?_zero, hr, hm]

/-! ## The judgement -/

/-- The segments that a text is read as, piece by piece. -/
inductive Reads : Text → List Segment → Prop
  | done : Reads [] []
  | step {w rest : Text} {x : Piece} {ss : List Segment} :
      d.pieceAt? (w ++ rest) 0 = some (x, w.bytes) → Reads rest ss → Reads (w ++ rest) (x.segment.join ss)

theorem segmentsFrom_of_reads (hd : d.Local) {t : Text} {ss : List Segment} (h : d.Reads t ss) :
    ∀ (p : Text) (i : Nat), p.fromByte? i = some t → d.segmentsFrom p i = ss := by
  -- One pattern and all positions in it: the rest of a step is what stands at the next one.
  induction h with
  | done =>
    intro p i hp
    rw [segmentsFrom, d.pieces_of_none (by rw [pieceAt?, hp])]
    rfl
  | @step w rest x ss hx _ ih =>
    intro p i hp
    have hrest : p.fromByte? (i + w.bytes) = some rest := by
      rw [Text.fromByte?_add hp, Text.fromByte?_append]
    rw [← ih p _ hrest, segmentsFrom, d.pieces_of_some (by rw [d.pieceAt?_of_fromByte? hd hp, hx])]
    rfl

/-- What a text is read as are its segments. -/
theorem segments_of_reads (hd : d.Local) {t : Text} {ss : List Segment} (h : d.Reads t ss) : d.segments t = ss := by
  rw [d.segments_eq_segmentsFrom]
  exact d.segmentsFrom_of_reads hd h t 0 (Text.fromByte?_zero t)

/-! ## One piece -/

section Pieces

variable {d} {region? : Text → Option Region} (hr : d.recognize = Quoting.atPosition region?)
include hr

theorem readRegion?_zero (t : Text) : d.readRegion? t 0 = (region? t).filter fun r => 0 < r.bytes := by
  rw [readRegion?, hr, Quoting.atPosition, Text.fromByte?_zero, Option.bind_some]

/-- A region is read as the text that it stands for. -/
theorem reads_region {w rest v : Text} {ss : List Segment} (hw : w ≠ [])
    (h : region? (w ++ rest) = some { value := v, bytes := w.bytes }) (hs : d.Reads rest ss) :
    d.Reads (w ++ rest) (Segment.prepend v ss) := by
  refine .step (x := .quoted v) ?_ hs
  obtain ⟨c, w, rfl⟩ := List.exists_cons_of_ne_nil hw
  rw [pieceAt?, Text.fromByte?_zero, readRegion?_zero hr, h, Option.filter_some,
    if_pos (decide_eq_true (Text.bytes_pos hw))]
  rfl

/-- A token is read where no region starts and its spelling ends. -/
theorem reads_token {k : Token} {rest : Text} {ss : List Segment} (hk : d.spell k ≠ [])
    (h : region? (d.spell k ++ rest) = none) (hdistinct : ∀ k', d.spell k' = d.spell k → k' = k)
    (he : d.Ends k rest) (hs : d.Reads rest ss) : d.Reads (d.spell k ++ rest) (.token k :: ss) := by
  refine .step (x := .token k) ?_ hs
  have hm := d.longestToken?_append hk hdistinct he
  obtain ⟨c, w, hw⟩ := List.exists_cons_of_ne_nil hk
  rw [hw] at h hm ⊢
  rw [pieceAt?, matchToken?, Text.fromByte?_zero, readRegion?_zero hr, h, Option.filter_none, Option.bind_some, hm]
  rfl

/-- A character is read as itself where no region starts, if no spelling begins with it. -/
theorem reads_plain {c : Char} {rest : Text} {ss : List Segment} (h : region? (c :: rest) = none)
    (hc : ∀ k, (d.spell k).head? ≠ some c) (hs : d.Reads rest ss) : d.Reads (c :: rest) (Segment.prepend [c] ss) := by
  refine .step (w := [c]) (x := .plain c) ?_ hs
  rw [pieceAt?, matchToken?, List.singleton_append, Text.fromByte?_zero, readRegion?_zero hr, h,
    Option.filter_none, Option.bind_some, d.longestToken?_eq_none_of_head hc]
  simp

/-- Text is read as itself if neither a region nor a spelling begins with one of its characters. -/
theorem reads_text {t rest : Text} {ss : List Segment} (h : ∀ c ∈ t, ∀ u, region? (c :: u) = none)
    (ht : ∀ c ∈ t, ∀ k, (d.spell k).head? ≠ some c) (hs : d.Reads rest ss) :
    d.Reads (t ++ rest) (Segment.prepend t ss) := by
  induction t with
  | nil => simpa using hs
  | cons c t ih =>
    have ih := ih (fun b hb => h b (List.mem_cons_of_mem c hb)) fun b hb => ht b (List.mem_cons_of_mem c hb)
    rw [Segment.prepend_cons]
    exact reads_plain hr (h c List.mem_cons_self _) (ht c List.mem_cons_self) ih

end Pieces

end CellFormat.Dialect
