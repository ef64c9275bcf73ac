import CellFormat.Number.StoredPattern
import CellFormat.Proofs.Number.Overflow
/-!
# What becomes of a stored pattern

A stored pattern is rewritten piece by piece, and a piece that consists of a
currency sign and digits stays of that form. The currency sign is not touched
(`integer_append`), and the decimals are put between brackets from the first `#`
on (`decimals_eq`).

A leading group of one or two `#` is dropped with the comma behind it. So the
commas that are left tell whether there were any, except where the dropped one
was the only one: `comma_mem_integer_iff`.
-/

namespace CellFormat

namespace Text

variable {separator : Char} {t : Text}

/-! ## Pieces between separators -/

theorem intercalate_append_cons (separator : Char) (before piece : Text) (pieces : List Text) :
    List.intercalate [separator] ((before ++ piece) :: pieces) =
      before ++ List.intercalate [separator] (piece :: pieces) := by
  cases pieces with
  | nil => rw [List.intercalate_singleton, List.intercalate_singleton]
  | cons next pieces => rw [List.intercalate_cons_cons, List.intercalate_cons_cons]; simp

theorem split_append (h : separator ∉ t) (u : Text) :
    split separator (t ++ u) = (t ++ (split separator u).1, (split separator u).2) := by
  induction t with
  | nil => rfl
  | cons c t ih =>
    rw [List.mem_cons, not_or] at h
    rw [List.cons_append, split, ih h.2]
    simp [Ne.symm h.1]

theorem split_of_not_mem (h : separator ∉ t) : split separator t = (t, []) := by
  have hsplit := split_append h []
  rwa [List.append_nil, split, List.append_nil] at hsplit

theorem split_append_cons (h : separator ∉ t) (u : Text) :
    split separator (t ++ separator :: u) = (t, (split separator u).1 :: (split separator u).2) := by
  rw [split_append h, split]
  simp

theorem intercalate_split (separator : Char) (t : Text) :
    List.intercalate [separator] ((split separator t).1 :: (split separator t).2) = t := by
  induction t with
  | nil => rfl
  | cons c t ih =>
    rw [split]
    by_cases hc : c = separator
    · simp only [hc, if_true]
      rw [List.intercalate_cons_cons, ih]
      rfl
    · simp only [hc, if_false]
      have hhead := intercalate_append_cons separator [c] (split separator t).1 (split separator t).2
      rwa [ih] at hhead

theorem not_mem_of_mem_split (separator : Char) (t : Text) :
    ∀ piece ∈ (split separator t).1 :: (split separator t).2, separator ∉ piece := by
  induction t with
  | nil => simp [split]
  | cons c t ih =>
    obtain ⟨hfirst, hothers⟩ := List.forall_mem_cons.1 ih
    rw [split]
    by_cases hc : c = separator
    · simp only [hc, if_true]
      exact List.forall_mem_cons.2 ⟨List.not_mem_nil, ih⟩
    · simp only [hc, if_false]
      refine List.forall_mem_cons.2 ⟨?_, hothers⟩
      rw [List.mem_cons, not_or]
      exact ⟨Ne.symm hc, hfirst⟩

end Text

namespace StoredPattern

open Text

/-! ## The language of stored patterns -/

/-- A currency sign, with a space after it or without, or none. -/
def IsCurrency (t : Text) : Prop := t = [] ∨ t = ['$'] ∨ t = ['$', ' ']

/-- Digits, shown always or unless they are zeros. -/
def IsDigits (t : Text) : Prop := ∀ c ∈ t, c = '0' ∨ c = '#'

/-- Digits in groups. -/
def IsWhole (t : Text) : Prop := ∀ c ∈ t, c = '0' ∨ c = '#' ∨ c = ','

theorem IsDigits.not_mem {t : Text} (h : IsDigits t) {c : Char} (hc : c ≠ '0' ∧ c ≠ '#') : c ∉ t := by
  intro hmem
  rcases h c hmem with rfl | rfl
  · exact hc.1 rfl
  · exact hc.2 rfl

theorem IsWhole.not_mem {t : Text} (h : IsWhole t) {c : Char} (hc : c ≠ '0' ∧ c ≠ '#' ∧ c ≠ ',') : c ∉ t := by
  intro hmem
  rcases h c hmem with rfl | rfl | rfl
  · exact hc.1 rfl
  · exact hc.2.1 rfl
  · exact hc.2.2 rfl

theorem IsDigits.isWhole {t : Text} (h : IsDigits t) : IsWhole t := fun c hc => (h c hc).imp_right .inl

theorem IsWhole.isDigits_of_mem_split {t : Text} (h : IsWhole t) :
    ∀ piece ∈ (split ',' t).1 :: (split ',' t).2, IsDigits piece := by
  intro piece hpiece c hc
  have hmem : c ∈ t := by
    rw [← intercalate_split ',' t]
    exact Numeral.mem_intercalate_of_mem_flatten (List.mem_flatten_of_mem hpiece hc)
  have hcomma : c ≠ ',' := fun he => not_mem_of_mem_split ',' t piece hpiece (he ▸ hc)
  rcases h c hmem with hzero | hhash | he
  · exact .inl hzero
  · exact .inr hhash
  · exact absurd he hcomma

theorem IsCurrency.not_mem {t : Text} (h : IsCurrency t) {c : Char} (hc : c ≠ '$' ∧ c ≠ ' ') : c ∉ t := by
  rcases h with rfl | rfl | rfl <;> simp [hc.1, hc.2]

/-! ## Groups -/

theorem splitCurrency_append {currency t : Text} (hc : IsCurrency currency) (ht : IsDigits t) :
    splitCurrency (currency ++ t) = (currency, t) := by
  have hdollar : '$' ∉ t := ht.not_mem (by decide)
  have hspace : ' ' ∉ t := ht.not_mem (by decide)
  rcases hc with rfl | rfl | rfl
  · cases t with
    | nil => rfl
    | cons c t =>
      rw [List.mem_cons, not_or] at hdollar
      rw [List.nil_append, splitCurrency]
      · rintro t ⟨⟩
        exact hdollar.1 rfl
      · rintro t ⟨⟩
        exact hdollar.1 rfl
  · cases t with
    | nil => rfl
    | cons c t =>
      rw [List.mem_cons, not_or] at hspace
      rw [List.singleton_append, splitCurrency]
      rintro t ⟨⟩
      exact hspace.1 rfl
  · rfl

theorem splitCurrency_of_isDigits {t : Text} (ht : IsDigits t) : splitCurrency t = ([], t) :=
  splitCurrency_append (.inl rfl) ht

theorem normalizeGroup_append {currency t : Text} (hc : IsCurrency currency) (ht : IsDigits t) :
    normalizeGroup (currency ++ t) =
      currency ++ if t.length = 3 then List.replicate (max 1 (t.dropWhile (· = '#')).length) '0' else t := by
  have hall : t.all (fun c => c = '0' || c = '#') = true := by
    rw [List.all_eq_true]
    intro c h
    simpa using ht c h
  simp only [normalizeGroup, splitCurrency_append hc ht, hall, and_true]
  split <;> rfl

theorem normalizeGroup_of_isDigits {t : Text} (ht : IsDigits t) :
    normalizeGroup t = if t.length = 3 then List.replicate (max 1 (t.dropWhile (· = '#')).length) '0' else t :=
  normalizeGroup_append (.inl rfl) ht

theorem isDigits_normalizeGroup {t : Text} (ht : IsDigits t) : IsDigits (normalizeGroup t) := by
  rw [normalizeGroup_of_isDigits ht]
  split
  · exact fun c hc => .inl (List.eq_of_mem_replicate hc)
  · exact ht

theorem normalizeGroup_eq_nil_iff {t : Text} (ht : IsDigits t) : normalizeGroup t = [] ↔ t = [] := by
  rw [normalizeGroup_of_isDigits ht]
  split
  · next hlen =>
    have hne : t ≠ [] := fun h => by simp [h] at hlen
    have hone : max 1 (t.dropWhile (· = '#')).length ≠ 0 := by omega
    simp [hne, hone]
  · rfl

/-- A leading group that is dropped. -/
def IsDropped (t : Text) : Prop := t = ['#'] ∨ t = ['#', '#']

instance (t : Text) : Decidable (IsDropped t) := inferInstanceAs (Decidable (_ ∨ _))

theorem IsDropped.isDigits {t : Text} (h : IsDropped t) : IsDigits t := by
  rcases h with rfl | rfl <;> simp [IsDigits]

theorem isDropped_normalizeGroup_iff {t : Text} (ht : IsDigits t) : IsDropped (normalizeGroup t) ↔ IsDropped t := by
  rw [normalizeGroup_of_isDigits ht]
  split
  · next hlen =>
    -- Three digits leave a zero in front.
    have hnot : ¬ IsDropped t := by rintro (rfl | rfl) <;> cases hlen
    obtain ⟨k, hk⟩ : ∃ k, max 1 (t.dropWhile (· = '#')).length = k + 1 :=
      Nat.exists_eq_add_one_of_ne_zero (by omega)
    rw [hk, List.replicate_succ]
    refine iff_of_false ?_ hnot
    rintro (h | h) <;> cases h
  · rfl

/-! ## The integer part -/

theorem groups_of_isDropped {first : Text} (h : IsDropped first) (next : Text) (others : List Text) :
    groups first next others = next :: others := by
  simp only [groups, splitCurrency_of_isDigits h.isDigits]
  exact if_pos h

theorem exists_groups_of_not_isDropped {first : Text} (hfirst : IsDigits first) (h : ¬ IsDropped first) (next : Text)
    (others : List Text) : ∃ lead, IsDigits lead ∧ groups first next others = lead :: next :: others := by
  unfold IsDropped at h
  simp only [groups, splitCurrency_of_isDigits hfirst]
  rw [if_neg h]
  split
  · exact ⟨['0'], by simp [IsDigits], rfl⟩
  · exact ⟨first, hfirst, rfl⟩

theorem intercalate_groups_append {currency first : Text} (hc : IsCurrency currency) (hfirst : IsDigits first)
    (next : Text) (others : List Text) :
    List.intercalate [','] (groups (currency ++ first) next others) =
      currency ++ List.intercalate [','] (groups first next others) := by
  simp only [groups, splitCurrency_append hc hfirst, splitCurrency_of_isDigits hfirst]
  split
  · exact intercalate_append_cons ..
  · split <;> exact intercalate_append_cons ..

theorem integer_of_not_mem {t : Text} (h : ',' ∉ t) : integer t = t := by
  rw [integer, split_of_not_mem h]

theorem integer_of_split {t first next : Text} {others : List Text} (h : split ',' t = (first, next :: others)) :
    integer t = List.intercalate [',']
      (groups (normalizeGroup first) (normalizeGroup next) (others.map normalizeGroup)) := by
  rw [integer, h]

/-- A currency sign stays in front of the integer part, whatever becomes of the first group. -/
theorem integer_append {currency t : Text} (hc : IsCurrency currency) (ht : IsWhole t) :
    integer (currency ++ t) = currency ++ integer t := by
  have hcomma : ',' ∉ currency := hc.not_mem (by decide)
  have hsplit := split_append hcomma t
  have hpieces := ht.isDigits_of_mem_split
  cases ht : split ',' t with
  | mk first others =>
    rw [ht] at hsplit hpieces
    cases others with
    | nil => rw [integer, hsplit, integer, ht]
    | cons next others =>
      have hfirst := hpieces first List.mem_cons_self
      rw [integer_of_split hsplit, integer_of_split ht, normalizeGroup_append hc hfirst,
        ← normalizeGroup_of_isDigits hfirst, intercalate_groups_append hc (isDigits_normalizeGroup hfirst)]

/-- The comma that goes with a dropped group is the only one of the pattern. -/
def LosesComma (t : Text) : Prop := ∃ lead rest, IsDropped lead ∧ ',' ∉ rest ∧ t = lead ++ ',' :: rest

theorem losesComma_iff {t : Text} : LosesComma t ↔ ∃ lead rest, IsDropped lead ∧ split ',' t = (lead, [rest]) := by
  constructor
  · rintro ⟨lead, rest, hlead, hrest, rfl⟩
    refine ⟨lead, rest, hlead, ?_⟩
    rw [split_append_cons (hlead.isDigits.not_mem (by decide)), split_of_not_mem hrest]
  · rintro ⟨lead, rest, hlead, hsplit⟩
    have ht := intercalate_split ',' t
    have hpieces := not_mem_of_mem_split ',' t
    rw [hsplit] at ht hpieces
    refine ⟨lead, rest, hlead, hpieces rest (by simp), ?_⟩
    rw [← ht, List.intercalate_cons_cons, List.intercalate_singleton]
    simp

/-- What becomes of an integer part: it stays without a comma; else its groups are normalized, and the first
one is dropped or some digits are put in its place. -/
inductive Normalized (t : Text) : Text → Prop
  | ungrouped (hno : ',' ∉ t) : Normalized t t
  | dropped {first next : Text} {others : List Text} (hsplit : split ',' t = (first, next :: others))
      (hpieces : ∀ piece ∈ next :: others, IsDigits piece) (hfirst : IsDropped first) :
      Normalized t (List.intercalate [','] ((next :: others).map normalizeGroup))
  | kept {first next lead : Text} {others : List Text} (hsplit : split ',' t = (first, next :: others))
      (hpieces : ∀ piece ∈ next :: others, IsDigits piece) (hfirst : ¬ IsDropped first) (hlead : IsDigits lead) :
      Normalized t (List.intercalate [','] (lead :: (next :: others).map normalizeGroup))

theorem normalized_integer {t : Text} (ht : IsWhole t) : Normalized t (integer t) := by
  have hpieces := ht.isDigits_of_mem_split
  have hwhole := intercalate_split ',' t
  cases hsplit : split ',' t with
  | mk first others =>
    rw [hsplit] at hpieces hwhole
    obtain ⟨hfirst, hothers⟩ := List.forall_mem_cons.1 hpieces
    cases others with
    | nil =>
      have hno : ',' ∉ t := by
        rw [← hwhole, List.intercalate_singleton]
        exact hfirst.not_mem (by decide)
      rw [integer_of_not_mem hno]
      exact .ungrouped hno
    | cons next others =>
      rw [integer_of_split hsplit]
      by_cases hdropped : IsDropped first
      · rw [groups_of_isDropped ((isDropped_normalizeGroup_iff hfirst).2 hdropped)]
        exact .dropped hsplit hothers hdropped
      · obtain ⟨lead, hlead, hgroups⟩ := exists_groups_of_not_isDropped (isDigits_normalizeGroup hfirst)
          (mt (isDropped_normalizeGroup_iff hfirst).1 hdropped) (normalizeGroup next) (others.map normalizeGroup)
        rw [hgroups]
        exact .kept hsplit hothers hdropped hlead

theorem isWhole_intercalate {pieces : List Text} (h : ∀ piece ∈ pieces, IsDigits piece) :
    IsWhole (List.intercalate [','] pieces) := by
  intro c hc
  rcases Numeral.mem_intercalate c hc with hmem | hcomma
  · obtain ⟨piece, hpiece, hmem⟩ := List.mem_flatten.1 hmem
    exact (h piece hpiece).isWhole c hmem
  · exact .inr (.inr hcomma)

theorem isDigits_of_mem_map {pieces : List Text} (h : ∀ piece ∈ pieces, IsDigits piece) :
    ∀ piece ∈ pieces.map normalizeGroup, IsDigits piece :=
  List.forall_mem_map.2 fun piece hpiece => isDigits_normalizeGroup (h piece hpiece)

theorem isWhole_integer {t : Text} (ht : IsWhole t) : IsWhole (integer t) := by
  have h := normalized_integer ht
  generalize integer t = u at h
  cases h with
  | ungrouped => exact ht
  | dropped _ hpieces _ => exact isWhole_intercalate (isDigits_of_mem_map hpieces)
  | kept _ hpieces _ hlead => exact isWhole_intercalate (List.forall_mem_cons.2 ⟨hlead, isDigits_of_mem_map hpieces⟩)

theorem mem_intercalate_cons_cons (separator : Char) (first next : Text) (others : List Text) :
    separator ∈ List.intercalate [separator] (first :: next :: others) := by
  rw [List.intercalate_cons_cons]
  simp

/-- A comma is left unless a dropped group took the only one with it. -/
theorem comma_mem_integer_iff {t : Text} (ht : IsWhole t) (hcomma : ',' ∈ t) :
    ',' ∈ integer t ↔ ¬ LosesComma t := by
  have h := normalized_integer ht
  generalize integer t = u at h
  rw [losesComma_iff]
  cases h with
  | ungrouped hno => exact absurd hcomma hno
  | @dropped first next others hsplit hpieces hfirst =>
    rw [hsplit]
    cases others with
    | nil =>
      have hnext := isDigits_normalizeGroup (hpieces next List.mem_cons_self)
      refine iff_of_false ?_ (not_not_intro ⟨first, next, hfirst, rfl⟩)
      rw [List.map_singleton, List.intercalate_singleton]
      exact hnext.not_mem (by decide)
    | cons other others =>
      refine iff_of_true (mem_intercalate_cons_cons ..) ?_
      rintro ⟨lead, rest, -, hother⟩
      cases hother
  | kept hsplit _ hfirst _ =>
    rw [hsplit]
    refine iff_of_true (mem_intercalate_cons_cons ..) ?_
    rintro ⟨lead, rest, hlead, hother⟩
    cases hother
    exact hfirst hlead

/-- Nothing is left only where nothing stands behind the comma of a dropped group. -/
theorem eq_of_integer_eq_nil {t : Text} (ht : IsWhole t) (hcomma : ',' ∈ t) (h : integer t = []) :
    t = "#,".toList ∨ t = "##,".toList := by
  have hloses : LosesComma t := by
    by_contra hno
    have hmem := (comma_mem_integer_iff ht hcomma).2 hno
    rw [h] at hmem
    cases hmem
  obtain ⟨lead, rest, hlead, hsplit⟩ := losesComma_iff.1 hloses
  have hrest : IsDigits rest := ht.isDigits_of_mem_split rest (by simp [hsplit])
  rw [integer_of_split hsplit, groups_of_isDropped ((isDropped_normalizeGroup_iff hlead.isDigits).2 hlead),
    List.map_nil, List.intercalate_singleton, normalizeGroup_eq_nil_iff hrest] at h
  have hwhole := intercalate_split ',' t
  rw [hsplit, h] at hwhole
  rcases hlead with rfl | rfl
  · exact .inl hwhole.symm
  · exact .inr hwhole.symm

/-! ## Decimals -/

theorem closeAfterLastZero_zeros (n : Nat) :
    closeAfterLastZero (List.replicate (n + 1) '0') = List.replicate (n + 1) '0' ++ [']'] := by
  induction n with
  | zero => rfl
  | succ n ih =>
    rw [List.replicate_succ, closeAfterLastZero, if_neg, ih]
    · rfl
    · simp [List.replicate_succ]

/-- Decimals from the first `#` on are put between brackets. -/
theorem decimals_eq {t : Text} (ht : IsDigits t) :
    decimals t = t.takeWhile (· ≠ '#') ++
      if '#' ∈ t then '[' :: List.replicate (t.dropWhile (· ≠ '#')).length '0' ++ [']'] else [] := by
  unfold decimals
  cases hsplit : splitFirst? '#' t with
  | none =>
    have hno := splitFirst?_eq_none_iff.1 hsplit
    rw [if_neg hno, List.append_nil, takeWhile_of_not_mem hno]
  | some parts =>
    obtain ⟨fixed, optional⟩ := parts
    obtain ⟨hfixed, rfl⟩ := splitFirst?_eq_some_iff.1 hsplit
    have hzeros : ('0' :: optional.map fun c => if c = '#' then '0' else c) = List.replicate (optional.length + 1) '0' := by
      rw [List.replicate_succ, List.map_eq_replicate_iff.2]
      intro c hc
      rcases ht c (by simp [hc]) with rfl | rfl <;> rfl
    have hbefore := all_ne_of_not_mem hfixed
    rw [if_pos (by simp), List.takeWhile_append_of_pos hbefore, List.dropWhile_append_of_pos hbefore]
    simp [hzeros, closeAfterLastZero_zeros]

/-- The decimals that are always shown: the zeros before the first `#`. -/
def fixedCount (t : Text) : Nat := (t.takeWhile (· ≠ '#')).count '0'

/-- The decimals that are shown unless they are zeros at the end. -/
def optionalCount (t : Text) : Nat := (t.dropWhile (· ≠ '#')).length

end StoredPattern

end CellFormat
