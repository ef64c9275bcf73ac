import CellFormat.Proofs.Dialect.Conversion
/-!
# Tokens that are dropped

A token without a spelling in the other dialect is dropped, and the literals on
both sides of it come to touch. Each of them was quoted by itself. Brackets side
by side are read as one literal, but an apostrophe that closes a literal and one
that opens the next are read as a doubled one: `'d''d'` is `d'd` and not `dd`.

`segments_convert_dropping`: with brackets the rest of a pattern keeps its
meaning. With apostrophes it does exactly if no two quoted literals come to
touch; else an apostrophe that was not in the pattern is shown between them.
-/

namespace CellFormat

open Quoting

namespace Segment

/-! ## Literal text -/

/-- The literal text of a segment. -/
def text : Segment → Text
  | .literal t => t
  | .token _ => []

/-! ## Literals that touch -/

theorem onTouching_const (f : Text → Text) (ss : List Segment) :
    onTouching f (fun t _ => f t) ss = ss.map (onLiteral f) := by
  induction ss with
  | nil => rfl
  | cons s ss ih =>
    rcases s with t | k
    · rcases ss with _ | ⟨u | k, ss⟩
      · rfl
      · exact congrArg (.literal (f t) :: ·) ih
      · exact congrArg (.literal (f t) :: ·) ih
    · exact congrArg (.token k :: ·) ih

/-- Not both are quoted literals. -/
def QuotedApart (reserved : Text) : Segment → Segment → Prop
  | .literal t, .literal u => ¬ (holdsReserved t reserved = true ∧ holdsReserved u reserved = true)
  | _, _ => True

instance (reserved : Text) : DecidableRel (QuotedApart reserved)
  | .literal t, .literal u =>
    inferInstanceAs (Decidable (¬ (holdsReserved t reserved = true ∧ holdsReserved u reserved = true)))
  | .token _, _ => .isTrue trivial
  | .literal _, .token _ => .isTrue trivial

/-- Segments are read as they are if no two quoted literals touch, and with more literal text if some do. -/
theorem onTouching_cases (reserved : Text) (ss : List Segment) :
    (ss.IsChain (QuotedApart reserved) ∧ onTouching id (Apostrophe.touching reserved) ss = ss) ∨
    (¬ ss.IsChain (QuotedApart reserved) ∧
      (ss.flatMap text).length < ((onTouching id (Apostrophe.touching reserved) ss).flatMap text).length) := by
  induction ss with
  | nil => exact .inl ⟨.nil, rfl⟩
  | cons s ss ih =>
    rcases s with t | k
    · rcases ss with _ | ⟨u | k, ss⟩
      · exact .inl ⟨.singleton _, rfl⟩
      · rw [onTouching, List.isChain_cons_cons]
        by_cases hboth : holdsReserved t reserved = true ∧ holdsReserved u reserved = true
        · refine .inr ⟨fun h => h.1 hboth, ?_⟩
          rw [Apostrophe.touching, if_pos hboth]
          rcases ih with ⟨-, he⟩ | ⟨-, hlt⟩
          · rw [he]
            simp [text]
          · simp only [List.flatMap_cons, text, List.length_append, List.length_singleton] at hlt ⊢
            omega
        · rw [Apostrophe.touching, if_neg hboth]
          rcases ih with ⟨hc, he⟩ | ⟨hc, hlt⟩
          · exact .inl ⟨⟨hboth, hc⟩, by rw [he]⟩
          · exact .inr ⟨fun h => hc h.2, by simpa [text] using hlt⟩
      · rcases ih with ⟨hc, he⟩ | ⟨hc, hlt⟩
        · exact .inl ⟨List.isChain_cons_cons.2 ⟨trivial, hc⟩, congrArg (literal t :: ·) he⟩
        · exact .inr ⟨fun h => hc h.tail, by simpa [onTouching, text] using hlt⟩
    · rcases ih with ⟨hc, he⟩ | ⟨hc, hlt⟩
      · exact .inl ⟨List.isChain_cons.2 ⟨fun _ _ => trivial, hc⟩, by rw [onTouching, he]⟩
      · exact .inr ⟨fun h => hc h.tail, hlt⟩

/-- What is read has the text of the segments exactly if no two quoted literals touch. -/
theorem gather_onTouching_eq_iff {reserved : Text} {ss : List Segment} :
    gather (onTouching id (Apostrophe.touching reserved) ss) = gather ss ↔ ss.IsChain (QuotedApart reserved) := by
  rcases onTouching_cases reserved ss with ⟨hc, he⟩ | ⟨hc, hlt⟩
  · rw [he]
    exact iff_of_true rfl hc
  · refine iff_of_false (fun h => ?_) hc
    have htext := congrArg (fun ss => (ss.flatMap text).length) h
    simp only [flatMap_gather (f := text) fun _ _ => rfl] at htext
    omega

end Segment

namespace Dialect

open Segment

variable (d : Dialect)

/-! ## Dropping -/

/-- A segment is not dropped by a dialect if it is a literal, or a token with a spelling. -/
def keeps : Segment → Bool
  | .literal _ => true
  | .token k => d.spell k ≠ []

/-- What is dropped is not written anyway. -/
theorem flatMap_write_filter_keeps (ss : List Segment) : (ss.filter d.keeps).flatMap d.write = ss.flatMap d.write := by
  induction ss with
  | nil => rfl
  | cons s ss ih =>
    by_cases hs : d.keeps s = true
    · rw [List.filter_cons_of_pos hs, List.flatMap_cons, List.flatMap_cons, ih]
    · rw [List.filter_cons_of_neg hs, List.flatMap_cons, ih]
      cases s with
      | literal t => exact absurd rfl hs
      | token k =>
        have hk : d.spell k = [] := by simpa [keeps] using hs
        rw [write, hk, List.nil_append]

/-- Tokens that did not touch do not come to touch. -/
theorem isChain_filter_keeps {ss : List Segment} (h : ss.IsChain (OnTokens fun _ _ => False)) :
    (ss.filter d.keeps).IsChain (OnTokens fun _ _ => False) := by
  induction ss with
  | nil => exact .nil
  | cons s ss ih =>
    have ih := ih h.tail
    by_cases hs : d.keeps s = true
    · rw [List.filter_cons_of_pos hs]
      refine List.isChain_cons.2 ⟨?_, ih⟩
      rcases s with t | k
      · exact fun _ _ => trivial
      -- Behind a token there is a literal, which is kept, or nothing.
      · rcases ss with _ | ⟨u | k', ss⟩
        · rintro _ ⟨⟩
        · rintro _ ⟨⟩
          trivial
        · exact ((List.isChain_cons.1 h).1 _ rfl).elim
    · rwa [List.filter_cons_of_neg hs]

variable {d}

/-! ## Dialects with a single token -/

/-- A dialect with one of its tokens only. -/
def only (d : Dialect) (k : Token) : Dialect :=
  { d with name := "only ".toList ++ d.name, spell := fun k' => if k' = k then d.spell k' else [] }

theorem eq_of_spell_only {k k' : Token} (h : (d.only k).spell k' ≠ []) : k' = k := by
  by_contra hk
  exact h (if_neg hk)

theorem spell_only_subset (k k' : Token) : (d.only k).spell k' ⊆ d.spell k' := by
  unfold only
  by_cases hk : k' = k <;> simp [hk]

theorem Guarded.only {mark : Char} (hg : d.Guarded mark) (k : Token) : (d.only k).Guarded mark where
  reserved k' := List.Subset.trans (spell_only_subset k k') (hg.reserved k')
  unmarked k' hm := hg.unmarked k' (spell_only_subset k k' hm)
  distinct k' k'' hk' he := by
    have hk'' : (d.only k).spell k'' ≠ [] := by rwa [he]
    exact (eq_of_spell_only hk'').trans (eq_of_spell_only hk').symm

theorem Bracketed.only (hd : d.Bracketed) (k : Token) : (d.only k).Bracketed where
  toGuarded := hd.toGuarded.only k
  escape := hd.escape
  recognize := hd.recognize

theorem Apostrophed.only (hd : d.Apostrophed) (k : Token) : (d.only k).Apostrophed where
  toGuarded := hd.toGuarded.only k
  reserved_mark := hd.reserved_mark
  escape := hd.escape
  recognize := hd.recognize

/-! ## What is read -/

/-- Where no two tokens touch, what a dialect keeps of the segments is read back. -/
theorem QuotesAs.segments_write_of_keeps {mark : Char} {f : Text → Text} {g : Text → Text → Text}
    (hq : d.QuotesAs mark f g) {ss : List Segment} (hn : .literal [] ∉ ss)
    (h : ss.IsChain (OnTokens fun _ _ => False)) :
    d.segments (ss.flatMap d.write) = gather (onTouching f g (ss.filter d.keeps)) := by
  have hs : ∀ k, .token k ∈ ss.filter d.keeps → d.spell k ≠ [] := fun k hk => by
    simpa [keeps] using (List.mem_filter.1 hk).2
  have hc : (ss.filter d.keeps).IsChain (OnTokens fun k k' => d.Ends k (d.spell k')) :=
    isChain_onTokens_imp (fun _ _ => False.elim) (d.isChain_filter_keeps h)
  obtain ⟨region?, hr, -⟩ := hq.recognize
  rw [← d.flatMap_write_filter_keeps]
  exact d.segments_of_reads (local_of_atPosition hr)
    (hq.reads_gather (fun hm => hn (List.mem_filter.1 hm).1) hs hc)

/-- A pattern in which no two tokens touch, converted to a dialect of brackets or apostrophes, has the
segments of the original without the tokens that the dialect drops, and with the literals merged that
come to touch. Brackets are softened. With apostrophes there is one more between two quoted literals
that come to touch, so the segments are as they should be exactly if there are no such two. -/
theorem segments_convert_dropping (source dest : Dialect) (hn : source.name ≠ dest.name) (p : Text)
    (hp : (source.segments p).IsChain (OnTokens fun _ _ => False)) :
    (dest.Bracketed → dest.segments (source.convert dest p) =
      gather (((source.segments p).filter dest.keeps).map (onLiteral Bracket.soften))) ∧
    (dest.Apostrophed →
      dest.segments (source.convert dest p) =
        gather (onTouching id (Apostrophe.touching dest.reserved) ((source.segments p).filter dest.keeps)) ∧
      (dest.segments (source.convert dest p) = gather ((source.segments p).filter dest.keeps) ↔
        ((source.segments p).filter dest.keeps).IsChain (QuotedApart dest.reserved))) := by
  have hne := (source.gathered_segments p).nonempty
  rw [convert_of_ne hn]
  constructor
  · intro hd
    rw [hd.quotesAs.segments_write_of_keeps hne hp, onTouching_const]
  · intro hd
    rw [hd.quotesAs.segments_write_of_keeps hne hp]
    exact ⟨rfl, gather_onTouching_eq_iff⟩

/-- Two letters with a year between them, where there are no years: the apostrophe around one and that
around the other show as an apostrophe. -/
theorem segments_convert_dropping_closed_and_opened :
    (datepicker.only .dayOfMonth).segments (moment.convert (datepicker.only .dayOfMonth) "[d]YYYY[d]".toList) =
      [.literal "d'd".toList] ∧
    ¬ ∀ (source dest : Dialect) (p : Text), source.name ≠ dest.name → dest.Apostrophed →
      (∀ k, '[' ∉ dest.spell k ∧ ']' ∉ dest.spell k) → (source.segments p).IsChain (OnTokens fun _ _ => False) →
      dest.segments (source.convert dest p) = gather ((source.segments p).filter dest.keeps) := by
  have hread : (datepicker.only .dayOfMonth).segments
      (moment.convert (datepicker.only .dayOfMonth) "[d]YYYY[d]".toList) = [.literal "d'd".toList] := by
    with_unfolding_all decide
  refine ⟨hread, fun h => ?_⟩
  have hsame := h moment (datepicker.only .dayOfMonth) "[d]YYYY[d]".toList (by decide)
    (datepicker_apostrophed.only _) (by decide) (by with_unfolding_all decide)
  rw [hread] at hsame
  exact absurd hsame (by with_unfolding_all decide)

/-- Brackets around literals that come to touch, and apostrophes around two of three such literals. -/
theorem segments_convert_dropping_years :
    (datepicker.name ≠ (moment.only .dayOfMonth).name ∧ (moment.only .dayOfMonth).Bracketed ∧
      (datepicker.segments "'D[ay]'yy'D' d x'y'".toList).IsChain (OnTokens fun _ _ => False) ∧
      (moment.only .dayOfMonth).segments (datepicker.convert (moment.only .dayOfMonth) "'D[ay]'yy'D' d x'y'".toList) =
        [.literal "D(ay)D ".toList, .token .dayOfMonth, .literal " xy".toList]) ∧
    moment.name ≠ (datepicker.only .dayOfMonth).name ∧ (datepicker.only .dayOfMonth).Apostrophed ∧
      (moment.segments "x[d]YYYY[d']HH - D".toList).IsChain (OnTokens fun _ _ => False) ∧
      (datepicker.only .dayOfMonth).segments (moment.convert (datepicker.only .dayOfMonth) "x[d]YYYY[d']HH - D".toList) =
        [.literal "xd'd' - ".toList, .token .dayOfMonth] := by
  have hm : (datepicker.segments "'D[ay]'yy'D' d x'y'".toList).IsChain (OnTokens fun _ _ => False) := by
    with_unfolding_all decide
  have hd : (moment.segments "x[d]YYYY[d']HH - D".toList).IsChain (OnTokens fun _ _ => False) := by
    with_unfolding_all decide
  have hbracketed := moment_bracketed.only .dayOfMonth
  have hapostrophed := datepicker_apostrophed.only .dayOfMonth
  exact ⟨⟨by decide, hbracketed, hm, ((segments_convert_dropping datepicker _ (by decide) _ hm).1 hbracketed).trans
      (by with_unfolding_all decide)⟩,
    by decide, hapostrophed, hd, ((segments_convert_dropping moment _ (by decide) _ hd).2 hapostrophed).1.trans
      (by with_unfolding_all decide)⟩

end Dialect

end CellFormat
