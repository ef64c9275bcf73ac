import CellFormat.Dialect.Conversion
import CellFormat.Proofs.Dialect.Quoting
import CellFormat.Proofs.Dialect.Reading
/-!
# Literals among tokens are read back

A dialect that quotes only where it has to leaves other text as it is. That is
safe if its spellings consist of reserved characters (`Guarded`): such text
neither begins a token nor makes the token before it longer. `QuotesAs` is what
brackets and apostrophes then have in common, and by `QuotesAs.reads_write` all
segments are read back that are written in such a dialect, as long as each
token ends in front of the token behind it.

Doubled percent signs need no such condition, since no text is left as it is
that could begin a token (`reads_percent_double`).
-/

namespace CellFormat

open Quoting

namespace Segment

/-- The segment with its literal text changed. -/
def onLiteral (f : Text → Text) : Segment → Segment
  | .literal t => .literal (f t)
  | .token k => .token k

theorem map_onLiteral_id (ss : List Segment) : ss.map (onLiteral id) = ss := by
  have h : onLiteral id = id := by
    funext s
    cases s <;> rfl
  rw [h, List.map_id]

theorem head_onLiteral (f : Text → Text) {ss : List Segment} (h : ∀ t, .literal t ∉ ss.head?) (t : Text) :
    .literal t ∉ (ss.map (onLiteral f)).head? := by
  rcases ss with _ | ⟨u | k, ss⟩
  · simp
  · simp at h
  · simp [onLiteral]

/-- The segments with every literal changed: by `g`, which also takes the literal that it touches, or
by `f` if it touches none. -/
def onTouching (f : Text → Text) (g : Text → Text → Text) : List Segment → List Segment
  | [] => []
  | .literal t :: .literal u :: ss => .literal (g t u) :: onTouching f g (.literal u :: ss)
  | .literal t :: ss => .literal (f t) :: onTouching f g ss
  | .token k :: ss => .token k :: onTouching f g ss

theorem onTouching_of_separate {f : Text → Text} {g : Text → Text → Text} {ss : List Segment}
    (h : ss.IsChain Separate) : onTouching f g ss = ss.map (onLiteral f) := by
  induction ss with
  | nil => rfl
  | cons s ss ih =>
    have ih := ih h.tail
    rcases s with t | k
    · rcases ss with _ | ⟨u | k, ss⟩
      · rfl
      · exact ((List.isChain_cons.1 h).1 _ rfl).elim
      · exact congrArg (.literal (f t) :: ·) ih
    · exact congrArg (.token k :: ·) ih

theorem gathered_onLiteral {f : Text → Text} (hf : ∀ t, t ≠ [] → f t ≠ []) {ss : List Segment} (h : Gathered ss) :
    Gathered (ss.map (onLiteral f)) := by
  induction ss with
  | nil => exact h
  | cons s ss ih =>
    cases s with
    | literal t =>
      obtain ⟨ht, hu, hss⟩ := gathered_literal_iff.1 h
      exact gathered_literal_iff.2 ⟨hf t ht, head_onLiteral f hu, ih hss⟩
    | token k => exact gathered_token_iff.2 (ih (gathered_token_iff.1 h))

end Segment

namespace Dialect

variable {d : Dialect}

/-- Doubled text is read back in front of any other, if all spellings begin with a percent sign. -/
theorem reads_percent_double (hr : d.recognize = atPosition Percent.region?)
    (hs : ∀ k c, (d.spell k).head? = some c → c = '%') {rest : Text} {ss : List Segment} (h : d.Reads rest ss) (t : Text) :
    d.Reads (Percent.double t ++ rest) (Segment.prepend t ss) := by
  induction t with
  | nil => simpa [Percent.double] using h
  | cons c t ih =>
    rw [Percent.double_cons, List.append_assoc, Segment.prepend_cons]
    by_cases hc : c = '%'
    · rw [if_pos hc, hc]
      exact reads_region hr (by simp) rfl ih
    · rw [if_neg hc]
      exact reads_plain hr (Percent.region?_of_ne hc _) (fun k hk => hc (hs k c hk)) ih

/-! ## Guarded spellings -/

/-- Spellings differ and consist of reserved characters, and `mark` is not one of those. -/
structure Guarded (d : Dialect) (mark : Char) : Prop where
  reserved : ∀ k, d.spell k ⊆ d.reserved
  unmarked : ∀ k, mark ∉ d.spell k
  distinct : ∀ k k', d.spell k ≠ [] → d.spell k' = d.spell k → k' = k

/-- Literals in brackets. -/
structure Bracketed (d : Dialect) : Prop extends d.Guarded '[' where
  escape : d.escape = Bracket.quote
  recognize : d.recognize = atPosition Bracket.region?

/-- Literals in apostrophes. An apostrophe forces a literal to be quoted. -/
structure Apostrophed (d : Dialect) : Prop extends d.Guarded '\'' where
  reserved_mark : '\'' ∈ d.reserved
  escape : d.escape = Apostrophe.quote
  recognize : d.recognize = atPosition Apostrophe.region?

section Guarded

variable {mark : Char} (hg : d.Guarded mark)
include hg

/-- A character that begins a written literal is in no spelling. -/
theorem Guarded.not_mem {c : Char} (hc : c = mark ∨ c ∉ d.reserved) (k : Token) : c ∉ d.spell k := by
  intro hk
  rcases hc with rfl | hc
  · exact hg.unmarked k hk
  · exact hc (hg.reserved k hk)

/-- Text that needs no quotes is read as it is. -/
theorem Guarded.reads_unreserved {region? : Text → Option Region} (hr : d.recognize = atPosition region?)
    (hmark : ∀ c, c ≠ mark → ∀ t, region? (c :: t) = none) {t rest : Text} {ss : List Segment} (hm : mark ∉ t)
    (ht : ∀ c ∈ t, c ∉ d.reserved) (h : d.Reads rest ss) : d.Reads (t ++ rest) (Segment.prepend t ss) := by
  refine reads_text hr (fun c hc => hmark c ?_) (fun c hc k hk => ?_) h
  · rintro rfl
    exact hm hc
  · exact hg.not_mem (.inr (ht c hc)) k (List.mem_of_mem_head? hk)

end Guarded

/-- A bracketed literal is read back in front of any text. -/
theorem Bracketed.reads_quote (hd : d.Bracketed) {rest : Text} {ss : List Segment} (h : d.Reads rest ss) (t : Text) :
    d.Reads (d.escapeLiteral t ++ rest) (Segment.prepend (Bracket.soften t) ss) := by
  obtain ⟨hopen, hclose⟩ := Bracket.not_mem_soften t
  rw [escapeLiteral, hd.escape, Bracket.quote]
  by_cases hq : holdsReserved (Bracket.soften t) d.reserved = true
  · rw [if_pos hq]
    exact reads_region hd.recognize (by simp) (Bracket.region?_append hclose rest) h
  · rw [if_neg hq]
    exact hd.reads_unreserved hd.recognize (fun _ => Bracket.region?_of_ne) hopen (not_holdsReserved_iff.1 hq) h

/-- A literal is read back in front of text that does not begin with an apostrophe, and if it is not
quoted, in front of any text. -/
theorem Apostrophed.reads_quote (hd : d.Apostrophed) {rest : Text} {ss : List Segment} (h : d.Reads rest ss) (t : Text)
    (hrest : holdsReserved t d.reserved = true → '\'' ∉ rest.head?) :
    d.Reads (d.escapeLiteral t ++ rest) (Segment.prepend t ss) := by
  rw [escapeLiteral, hd.escape, Apostrophe.quote]
  by_cases hq : holdsReserved t d.reserved = true
  · rw [if_pos hq]
    exact reads_region hd.recognize (by simp) (Apostrophe.region?_append t (hrest hq)) h
  · have hplain := not_holdsReserved_iff.1 hq
    rw [if_neg hq]
    exact hd.reads_unreserved hd.recognize (fun _ => Apostrophe.region?_of_ne)
      (fun hm => hplain _ hm hd.reserved_mark) hplain h

/-- An apostrophe that closes a literal and one that opens the next are read as a doubled one: the
literals are one, with an apostrophe between them. -/
theorem Apostrophed.reads_behind (hd : d.Apostrophed) {w : Text} {ss : List Segment} (h : d.Reads ('\'' :: w) ss)
    (t : Text) : d.Reads ('\'' :: Apostrophe.double t ++ w) (Segment.prepend t ss) := by
  have hpiece : d.pieceAt? ('\'' :: w) 0 = some (.quoted (Apostrophe.body w).value, (Apostrophe.body w).bytes + 1) := by
    rw [pieceAt?, Text.fromByte?_zero, readRegion?_zero hd.recognize]
    rfl
  generalize hw : '\'' :: w = u at h hpiece
  cases h with
  | done => cases hw
  | @step v rest x ss hx hs =>
    -- What was read in front of `rest` is a region, and the longer text is one too.
    rw [hx] at hpiece
    simp only [Option.some.injEq, Prod.mk.injEq] at hpiece
    obtain ⟨rfl, hv⟩ := hpiece
    obtain ⟨c, v, rfl⟩ : ∃ c v', v = c :: v' := List.exists_cons_of_ne_nil (by rintro rfl; simp at hv)
    obtain ⟨rfl, rfl⟩ : '\'' = c ∧ w = v ++ rest := by simpa using hw
    rw [Piece.segment, Segment.join_literal, Segment.prepend_append]
    have hbytes : Text.bytes ('\'' :: Apostrophe.double t ++ v) =
        (Apostrophe.double t).bytes + (Apostrophe.body (v ++ rest)).bytes + 1 := by
      simp only [Text.bytes_cons, List.cons_append, Text.bytes_append] at hv ⊢
      omega
    have hregion : Apostrophe.region? ('\'' :: Apostrophe.double t ++ v ++ rest) =
        some { value := t ++ (Apostrophe.body (v ++ rest)).value,
               bytes := Text.bytes ('\'' :: Apostrophe.double t ++ v) } := by
      rw [hbytes, List.append_assoc, List.cons_append, Apostrophe.region?, Apostrophe.body_double_append]
    rw [← List.append_assoc]
    exact reads_region hd.recognize (by simp) hregion hs

/-- A literal is read back in front of another one, up to the apostrophe that is read between two quoted ones. -/
theorem Apostrophed.reads_touching (hd : d.Apostrophed) {u rest : Text} {ss : List Segment} (hu : u ≠ [])
    (h : d.Reads (d.escapeLiteral u ++ rest) ss) (t : Text) :
    d.Reads (d.escapeLiteral t ++ (d.escapeLiteral u ++ rest))
      (Segment.prepend (Apostrophe.touching d.reserved t u) ss) := by
  by_cases hboth : holdsReserved t d.reserved = true ∧ holdsReserved u d.reserved = true
  · have hquote : ∀ v, holdsReserved v d.reserved = true → d.escapeLiteral v = '\'' :: Apostrophe.double v ++ ['\''] :=
      fun v hv => by rw [escapeLiteral, hd.escape, Apostrophe.quote, if_pos hv]
    rw [hquote u hboth.2] at h ⊢
    rw [hquote t hboth.1, Apostrophe.touching, if_pos hboth]
    have hread := hd.reads_behind h (t ++ ['\''])
    have hmark : Apostrophe.double ['\''] = ['\'', '\''] := rfl
    rw [Apostrophe.double_append, hmark] at hread
    simpa using hread
  · rw [Apostrophe.touching, if_neg hboth]
    refine hd.reads_quote h t fun ht => ?_
    -- The literal behind is not quoted, and an apostrophe would have been a reason to quote it.
    have hplain := not_holdsReserved_iff.1 fun hu => hboth ⟨ht, hu⟩
    obtain ⟨c, v, rfl⟩ := List.exists_cons_of_ne_nil hu
    rw [escapeLiteral, hd.escape, Apostrophe.quote, if_neg (not_holdsReserved_iff.2 hplain)]
    rintro ⟨⟩
    exact hplain _ List.mem_cons_self hd.reserved_mark

/-! ## Segments -/

/-- A dialect that quotes literals so that they are read back: as `f` changes them in front of text
that does not begin with `mark`, and as `g` changes them in front of another literal. -/
structure QuotesAs (d : Dialect) (mark : Char) (f : Text → Text) (g : Text → Text → Text) : Prop
    extends d.Guarded mark where
  recognize : ∃ region?, d.recognize = atPosition region? ∧ ∀ c, c ≠ mark → ∀ t, region? (c :: t) = none
  nonempty : ∀ t, t ≠ [] → f t ≠ []
  head : ∀ t, t ≠ [] → ∃ c u, d.escapeLiteral t = c :: u ∧ (c = mark ∨ c ∉ d.reserved)
  reads : ∀ t rest ss, mark ∉ rest.head? → d.Reads rest ss → d.Reads (d.escapeLiteral t ++ rest) (Segment.prepend (f t) ss)
  touches : ∀ t u rest ss, u ≠ [] → d.Reads (d.escapeLiteral u ++ rest) ss →
    d.Reads (d.escapeLiteral t ++ (d.escapeLiteral u ++ rest)) (Segment.prepend (g t u) ss)

theorem Bracketed.quotesAs (hd : d.Bracketed) : d.QuotesAs '[' Bracket.soften fun t _ => Bracket.soften t where
  toGuarded := hd.toGuarded
  recognize := ⟨_, hd.recognize, fun _ => Bracket.region?_of_ne⟩
  nonempty _ := Bracket.soften_ne_nil
  head t ht := by
    rw [escapeLiteral, hd.escape]
    exact head_of_quoted (Bracket.soften_ne_nil ht) _
  reads t _ _ _ h := hd.reads_quote h t
  touches t _ _ _ _ h := hd.reads_quote h t

theorem Apostrophed.quotesAs (hd : d.Apostrophed) : d.QuotesAs '\'' id (Apostrophe.touching d.reserved) where
  toGuarded := hd.toGuarded
  recognize := ⟨_, hd.recognize, fun _ => Apostrophe.region?_of_ne⟩
  nonempty _ ht := ht
  head t ht := by
    rw [escapeLiteral, hd.escape]
    exact head_of_quoted ht _
  reads t _ _ hm h := hd.reads_quote h t fun _ => hm
  touches t _ _ _ hu h := hd.reads_touching hu h t

namespace QuotesAs

variable {mark : Char} {f : Text → Text} {g : Text → Text → Text} (hq : d.QuotesAs mark f g) {ss : List Segment}
include hq

/-- A spelling ends where a literal follows it, or a token that it ends in front of. -/
theorem ends_write (hs : ∀ k, .token k ∈ ss → d.spell k ≠ []) (hg : .literal [] ∉ ss) {k : Token}
    (hk : ∀ k', .token k' ∈ ss.head? → d.Ends k (d.spell k')) : d.Ends k (ss.flatMap d.write) := by
  intro c hc k' hp
  rcases ss with _ | ⟨t | k'', ss⟩
  · simp at hc
  · have ht : t ≠ [] := by
      rintro rfl
      exact hg List.mem_cons_self
    -- The literal begins with a character that no spelling has, so none goes on with it.
    obtain ⟨b, u, hw, hb⟩ := hq.head t ht
    have hcb : b = c := by simpa [write, hw] using hc
    exact hq.not_mem hb k' (hp.subset (by simp [hcb]))
  · obtain ⟨b, u, hw⟩ := List.exists_cons_of_ne_nil (hs k'' List.mem_cons_self)
    have hcb : b = c := by simpa [write, hw] using hc
    exact hk k'' (by simp) c (by simp [hw, hcb]) k' hp

/-- Behind a literal, written segments do not begin with the mark. -/
theorem mark_not_mem_write (hs : ∀ k, .token k ∈ ss → d.spell k ≠ []) (hu : ∀ t, .literal t ∉ ss.head?) :
    mark ∉ (ss.flatMap d.write).head? := by
  intro hm
  rcases ss with _ | ⟨t | k, ss⟩
  · simp at hm
  · simp at hu
  · obtain ⟨b, u, hw⟩ := List.exists_cons_of_ne_nil (hs k List.mem_cons_self)
    have hb : b = mark := by simpa [write, hw] using hm
    exact hq.unmarked k (by simp [hw, hb])

/-- Written segments are read back with adjacent literals merged, if each token ends in front of the
token behind it. -/
theorem reads_gather (hn : .literal [] ∉ ss) (hs : ∀ k, .token k ∈ ss → d.spell k ≠ [])
    (hc : ss.IsChain (Segment.OnTokens fun k k' => d.Ends k (d.spell k'))) :
    d.Reads (ss.flatMap d.write) (Segment.gather (Segment.onTouching f g ss)) := by
  induction ss with
  | nil => exact .done
  | cons s ss ih =>
    have hn' : .literal [] ∉ ss := fun h => hn (List.mem_cons_of_mem s h)
    have hs' : ∀ k, .token k ∈ ss → d.spell k ≠ [] := fun k hk => hs k (List.mem_cons_of_mem s hk)
    have hread := ih hn' hs' hc.tail
    cases s with
    | literal t =>
      rcases ss with _ | ⟨u | k, ss⟩
      · exact hq.reads t _ _ (hq.mark_not_mem_write hs' (by simp)) hread
      · have hu : u ≠ [] := by
          rintro rfl
          exact hn' List.mem_cons_self
        exact hq.touches t u _ _ hu hread
      · exact hq.reads t _ _ (hq.mark_not_mem_write hs' (by simp)) hread
    | token k =>
      have hk := hs k List.mem_cons_self
      obtain ⟨region?, hr, hmark⟩ := hq.recognize
      -- A region starts with the mark, and no spelling does.
      have hregion : region? (d.spell k ++ ss.flatMap d.write) = none := by
        obtain ⟨b, u, hw⟩ := List.exists_cons_of_ne_nil hk
        rw [hw]
        refine hmark b ?_ _
        rintro rfl
        exact hq.unmarked k (by simp [hw])
      have hends := hq.ends_write hs' hn' fun k' hk' => (List.isChain_cons.1 hc).1 _ hk'
      exact reads_token hr hk hregion (fun k' => hq.distinct k k' hk) hends hread

/-- Segments are read back as they were written, if each token ends in front of the token behind it. -/
theorem reads_write (hg : Segment.Gathered ss) (hs : ∀ k, .token k ∈ ss → d.spell k ≠ [])
    (hc : ss.IsChain (Segment.OnTokens fun k k' => d.Ends k (d.spell k'))) :
    d.Reads (ss.flatMap d.write) (ss.map (Segment.onLiteral f)) := by
  have hread := hq.reads_gather hg.nonempty hs hc
  rwa [Segment.onTouching_of_separate hg.separate,
    Segment.gather_of_gathered (Segment.gathered_onLiteral hq.nonempty hg)] at hread

end QuotesAs

end Dialect

end CellFormat
