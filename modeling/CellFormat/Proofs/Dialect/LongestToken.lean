import CellFormat.Dialect.Basic
/-!
# The longest token

`longestToken?` goes through all tokens once and keeps the best match so far.
`isLongest_longestToken?` says what it ends with: the longest spelling that the
text begins with, and of equally long ones the first. There is only one such
outcome (`longestToken?_eq_iff`).

`longestToken?_append` is what a writer of patterns needs: behind a spelling
that no other one reads on from, any text may follow.
-/

namespace CellFormat

/-! ## Texts that begin with a text -/

namespace Text

/-- A proper beginning of a text is shorter. -/
theorem bytes_lt_of_prefix {s t : Text} (h : s <+: t) (hne : s ≠ t) : s.bytes < t.bytes := by
  obtain ⟨u, rfl⟩ := h
  have hu : u ≠ [] := by
    rintro rfl
    simp at hne
  have := bytes_pos hu
  rw [bytes_append]
  omega

/-- What `s ++ rest` begins with is within `s`, or goes on from `s` into `rest`. -/
theorem prefix_append_cases {s rest t : Text} (h : t <+: s ++ rest) :
    t <+: s ∨ ∃ c ∈ rest.head?, s ++ [c] <+: t := by
  obtain ⟨u, hu⟩ := h
  rcases List.append_eq_append_iff.1 hu with ⟨v, rfl, -⟩ | ⟨v, rfl, rfl⟩
  · exact .inl (List.prefix_append t v)
  · cases v with
    | nil => exact .inl (by simp)
    | cons c v => exact .inr ⟨c, by simp, by simp⟩

end Text

namespace Dialect

variable (d : Dialect)

/-! ## What the search keeps -/

/-- The text begins with the spelling of a token. -/
def Matches (rest : Text) (k : Token) : Prop := d.spell k ≠ [] ∧ d.spell k <+: rest

/-- What a search through `ks` is to end with: the first of the longest matches, and its length. -/
def IsLongest (rest : Text) (ks : List Token) : Option (Token × Nat) → Prop
  | none => ∀ k ∈ ks, ¬ d.Matches rest k
  | some (k, n) => d.Matches rest k ∧ n = (d.spell k).bytes ∧ ∃ before after, ks = before ++ k :: after ∧
      (∀ k' ∈ before, d.Matches rest k' → (d.spell k').bytes < n) ∧
      ∀ k' ∈ after, d.Matches rest k' → (d.spell k').bytes ≤ n

theorem betterMatch_of_matches {rest : Text} {k : Token} (h : d.Matches rest k) (best : Option (Token × Nat)) :
    d.betterMatch rest best k =
      if best.all (fun b => b.2 < (d.spell k).bytes) then some (k, (d.spell k).bytes) else best := by
  obtain ⟨hne, hp⟩ := h
  simp [betterMatch, spelling?, hne, List.isPrefixOf_iff_prefix.2 hp]

theorem betterMatch_of_not_matches {rest : Text} {k : Token} (h : ¬ d.Matches rest k) (best : Option (Token × Nat)) :
    d.betterMatch rest best k = best := by
  unfold betterMatch spelling?
  by_cases hk : d.spell k = []
  · simp [hk]
  · have hp : (d.spell k).isPrefixOf rest = false := by
      rw [← Bool.not_eq_true, List.isPrefixOf_iff_prefix]
      exact fun hp => h ⟨hk, hp⟩
    simp [hk, hp]

/-- A token that is no longer match leaves the best match as it is. -/
theorem isLongest_append {rest : Text} {ks : List Token} {b k : Token} {n : Nat}
    (h : d.IsLongest rest ks (some (b, n))) (hk : d.Matches rest k → (d.spell k).bytes ≤ n) :
    d.IsLongest rest (ks ++ [k]) (some (b, n)) := by
  obtain ⟨hb, hn, before, after, rfl, hbefore, hafter⟩ := h
  refine ⟨hb, hn, before, after ++ [k], by simp, hbefore, fun k' hk' hm => ?_⟩
  simp only [List.mem_append, List.mem_singleton] at hk'
  rcases hk' with hk' | rfl
  · exact hafter k' hk' hm
  · exact hk hm

/-- One more token: the best match among those before becomes the best match with it. -/
theorem isLongest_betterMatch {rest : Text} {ks : List Token} {best : Option (Token × Nat)} (k : Token)
    (h : d.IsLongest rest ks best) : d.IsLongest rest (ks ++ [k]) (d.betterMatch rest best k) := by
  by_cases hk : d.Matches rest k
  · rw [d.betterMatch_of_matches hk]
    rcases best with _ | ⟨b, n⟩
    · exact ⟨hk, rfl, ks, [], rfl, fun k' hk' hm => absurd hm (h k' hk'), by simp⟩
    · by_cases hlt : n < (d.spell k).bytes
      · obtain ⟨-, hn, before, after, rfl, hbefore, hafter⟩ := h
        rw [if_pos (by simpa using hlt)]
        refine ⟨hk, rfl, before ++ b :: after, [], rfl, fun k' hk' hm => ?_, by simp⟩
        simp only [List.mem_append, List.mem_cons] at hk'
        rcases hk' with hk' | rfl | hk'
        · exact Nat.lt_trans (hbefore k' hk' hm) hlt
        · omega
        · exact Nat.lt_of_le_of_lt (hafter k' hk' hm) hlt
      · rw [if_neg (by simpa using hlt)]
        exact d.isLongest_append h fun _ => Nat.le_of_not_lt hlt
  · rw [d.betterMatch_of_not_matches hk]
    rcases best with _ | ⟨b, n⟩
    · intro k' hk'
      simp only [List.mem_append, List.mem_singleton] at hk'
      rcases hk' with hk' | rfl
      · exact h k' hk'
      · exact hk
    · exact d.isLongest_append h fun hm => absurd hm hk

theorem isLongest_foldl {rest : Text} (ks seen : List Token) (best : Option (Token × Nat))
    (h : d.IsLongest rest seen best) : d.IsLongest rest (seen ++ ks) (ks.foldl (d.betterMatch rest) best) := by
  -- The tokens that have been seen grow with each step, so this is about any of them.
  induction ks generalizing seen best with
  | nil => simpa using h
  | cons k ks ih =>
    rw [List.foldl_cons, List.append_cons]
    exact ih _ _ (d.isLongest_betterMatch k h)

/-- The longest token is the first of the longest matches. -/
theorem isLongest_longestToken? (rest : Text) : d.IsLongest rest Token.all (d.longestToken? rest) :=
  d.isLongest_foldl Token.all [] none (by simp [IsLongest])

/-! ## Consequences -/

variable {d} in
/-- There is at most one first of the longest matches. -/
theorem IsLongest.unique {rest : Text} {ks : List Token} {best best' : Option (Token × Nat)} (h : d.IsLongest rest ks best)
    (h' : d.IsLongest rest ks best') : best = best' := by
  rcases best with _ | ⟨k, n⟩ <;> rcases best' with _ | ⟨k', n'⟩
  · rfl
  · obtain ⟨hk', -, before, after, rfl, -⟩ := h'
    exact absurd hk' (h k' (by simp))
  · obtain ⟨hk, -, before, after, rfl, -⟩ := h
    exact absurd hk (h' k (by simp))
  · obtain ⟨hk, rfl, before, after, rfl, hbefore, hafter⟩ := h
    obtain ⟨hk', rfl, before', after', heq, hbefore', hafter'⟩ := h'
    -- Of two different ones, the later would have to be longer and the earlier not shorter.
    rcases List.append_eq_append_iff.1 heq with ⟨l, rfl, hl⟩ | ⟨l, rfl, hl⟩ <;> rcases l with _ | ⟨b, l⟩ <;> cases hl
    · rfl
    · have hlonger := hbefore' k (by simp) hk
      have hshorter := hafter k' (by simp) hk'
      omega
    · rfl
    · have hlonger := hbefore k' (by simp) hk'
      have hshorter := hafter' k (by simp) hk
      omega

theorem longestToken?_eq_iff {rest : Text} {best : Option (Token × Nat)} :
    d.longestToken? rest = best ↔ d.IsLongest rest Token.all best := by
  constructor
  · rintro rfl
    exact d.isLongest_longestToken? rest
  · exact (d.isLongest_longestToken? rest).unique

theorem longestToken?_eq_none_iff {rest : Text} : d.longestToken? rest = none ↔ ∀ k, ¬ d.Matches rest k := by
  have hl := d.isLongest_longestToken? rest
  constructor
  · intro h k
    rw [h] at hl
    exact hl k k.mem_all
  · intro h
    rcases hb : d.longestToken? rest with _ | ⟨k, n⟩
    · rfl
    · rw [hb] at hl
      exact absurd hl.1 (h k)

/-- The longest token matches, and no other match is longer. -/
theorem matches_of_longestToken? {rest : Text} {k : Token} {n : Nat} (h : d.longestToken? rest = some (k, n)) :
    d.Matches rest k ∧ n = (d.spell k).bytes ∧ ∀ k', d.Matches rest k' → (d.spell k').bytes ≤ n := by
  have hl := d.isLongest_longestToken? rest
  rw [h] at hl
  obtain ⟨hk, hn, before, after, hall, hbefore, hafter⟩ := hl
  refine ⟨hk, hn, fun k' hk' => ?_⟩
  have hm := k'.mem_all
  simp only [hall, List.mem_append, List.mem_cons] at hm
  rcases hm with hm | rfl | hm
  · exact Nat.le_of_lt (hbefore k' hm hk')
  · omega
  · exact hafter k' hm hk'

/-- A match that is longer than every other one is the longest token. -/
theorem longestToken?_eq_some {rest : Text} {k : Token} (hk : d.Matches rest k)
    (hlong : ∀ k', d.Matches rest k' → k' ≠ k → (d.spell k').bytes < (d.spell k).bytes) :
    d.longestToken? rest = some (k, (d.spell k).bytes) := by
  rcases hb : d.longestToken? rest with _ | ⟨b, n⟩
  · exact absurd hk (d.longestToken?_eq_none_iff.1 hb k)
  · obtain ⟨hm, rfl, hmax⟩ := d.matches_of_longestToken? hb
    by_cases hbk : b = k
    · rw [hbk]
    · have := hlong b hm hbk
      have := hmax k hk
      omega

/-- No spelling goes on from that of `k` with the first character of `rest`. -/
def Ends (k : Token) (rest : Text) : Prop := ∀ c ∈ rest.head?, ∀ k', ¬ d.spell k ++ [c] <+: d.spell k'

instance (k : Token) : (rest : Text) → Decidable (d.Ends k rest)
  | [] => .isTrue fun _ h => nomatch h
  | c :: _ => decidable_of_iff (∀ k', ¬ d.spell k ++ [c] <+: d.spell k') (by simp [Ends])

/-- Only the beginning of the text behind a spelling decides whether it ends there. -/
theorem ends_append_iff {k : Token} {t rest : Text} (ht : t ≠ []) : d.Ends k (t ++ rest) ↔ d.Ends k t := by
  obtain ⟨c, t, rfl⟩ := List.exists_cons_of_ne_nil ht
  simp [Ends]

/-- No other spelling begins with that of `k`. -/
def Final (k : Token) : Prop := ∀ k', d.spell k <+: d.spell k' → d.spell k' = d.spell k

instance (k : Token) : Decidable (d.Final k) :=
  inferInstanceAs (Decidable (∀ k', d.spell k <+: d.spell k' → d.spell k' = d.spell k))

variable {d} in
/-- Such a spelling ends in front of any text. -/
theorem Final.ends {k : Token} (hf : d.Final k) (rest : Text) : d.Ends k rest := by
  intro c _ k' hp
  have hk' := hf k' ((List.prefix_append _ _).trans hp)
  have hlen := hp.length_le
  rw [hk', List.length_append, List.length_singleton] at hlen
  omega

/-- A spelling that `rest` cannot make longer is read back, unless another token has the same. -/
theorem longestToken?_append {k : Token} {rest : Text} (hk : d.spell k ≠ [])
    (hd : ∀ k', d.spell k' = d.spell k → k' = k) (he : d.Ends k rest) :
    d.longestToken? (d.spell k ++ rest) = some (k, (d.spell k).bytes) := by
  refine d.longestToken?_eq_some ⟨hk, List.prefix_append _ _⟩ fun k' hk' hne => ?_
  -- Another match is within the spelling, and shorter, or goes on from it into the rest.
  rcases Text.prefix_append_cases hk'.2 with hp | ⟨c, hc, hp⟩
  · exact Text.bytes_lt_of_prefix hp fun h => hne (hd k' h)
  · exact absurd hp (he c hc k')

/-- Text whose first character no spelling begins with begins with no token. -/
theorem longestToken?_eq_none_of_head {c : Char} {rest : Text} (hc : ∀ k, (d.spell k).head? ≠ some c) :
    d.longestToken? (c :: rest) = none := by
  rw [longestToken?_eq_none_iff]
  rintro k ⟨hne, hp⟩
  obtain ⟨b, s, hs⟩ := List.exists_cons_of_ne_nil hne
  rw [hs, List.cons_prefix_cons] at hp
  exact hc k (by rw [hs, hp.1, List.head?_cons])

end Dialect

end CellFormat
