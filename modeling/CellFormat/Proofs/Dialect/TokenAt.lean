import CellFormat.Proofs.Dialect.LongestToken
import CellFormat.Proofs.Text.Positions
/-!
# The token at a position

Tokens have places, from the first to the last that is searched. So which token
is read can be said without the search: the longest that stands at a position,
and of equally long ones that of the lowest place (`longestToken?_eq_some_iff`).
Nothing is assumed of the spellings; they may be missing or equal, and begin one
another.

`token_at_position`: where no token is read and which one is read elsewhere, for
any position in bytes.
-/

namespace CellFormat

/-! ## Places of tokens -/

namespace Token

theorem index_eq_of_getElem? {i : Nat} {k : Token} (h : all[i]? = some k) : i = k.index := by
  have hnodup : all.Nodup := by decide
  obtain ⟨hi, -⟩ := List.getElem?_eq_some_iff.1 h
  exact (List.getElem?_inj hi hnodup).1 (h.trans (getElem?_index k).symm)

/-- The tokens in front of `k` are those of lower places. -/
theorem mem_before_iff {before after : List Token} {k : Token} (h : all = before ++ k :: after) (k' : Token) :
    k' ∈ before ↔ k'.index < k.index := by
  have hk : before.length = k.index := index_eq_of_getElem? (by simp [h])
  rw [← hk]
  constructor
  · intro hmem
    obtain ⟨i, hi, hget⟩ := List.getElem_of_mem hmem
    have hall : all[i]? = some k' := by
      rw [h, List.getElem?_append_left hi, List.getElem?_eq_getElem hi, hget]
    rwa [← index_eq_of_getElem? hall]
  · intro hlt
    have hget := getElem?_index k'
    rw [h, List.getElem?_append_left hlt] at hget
    exact List.mem_of_getElem? hget

end Token

namespace Dialect

variable (d : Dialect) {rest : Text} {k : Token} {n : Nat}

theorem longestToken?_eq_some_iff :
    d.longestToken? rest = some (k, n) ↔
      d.Matches rest k ∧ n = (d.spell k).bytes ∧ (∀ k', d.Matches rest k' → (d.spell k').bytes ≤ n) ∧
        ∀ k', k'.index < k.index → d.Matches rest k' → (d.spell k').bytes ≠ n := by
  rw [longestToken?_eq_iff]
  constructor
  · rintro ⟨hk, hn, before, after, hall, hbefore, hafter⟩
    have hsides : ∀ k', k' ∈ before ∨ k' = k ∨ k' ∈ after := by
      intro k'
      have hmem := k'.mem_all
      rwa [hall, List.mem_append, List.mem_cons] at hmem
    refine ⟨hk, hn, fun k' hk' => ?_, fun k' hlt hk' => ?_⟩
    · rcases hsides k' with hmem | rfl | hmem
      · exact Nat.le_of_lt (hbefore k' hmem hk')
      · exact Nat.le_of_eq hn.symm
      · exact hafter k' hmem hk'
    · exact Nat.ne_of_lt (hbefore k' ((Token.mem_before_iff hall k').2 hlt) hk')
  · rintro ⟨hk, hn, hmax, hfirst⟩
    obtain ⟨before, after, hall⟩ := List.append_of_mem k.mem_all
    refine ⟨hk, hn, before, after, hall, fun k' hmem hk' => ?_, fun k' _ hk' => hmax k' hk'⟩
    have hlt := (Token.mem_before_iff hall k').1 hmem
    exact Nat.lt_of_le_of_ne (hmax k' hk') (hfirst k' hlt hk')

/-- No token is read past the end, inside a character, and where no spelling stands. Elsewhere a token is
read whose spelling stands there, with the length of the spelling. No other spelling that stands there is
longer, and none of an earlier token is as long. -/
theorem token_at_position (d : Dialect) (p : Text) (i : Nat) :
    (d.matchToken? p i = none ↔
      p.bytes < i ∨ p.InsideCharacter i ∨
        ∃ before rest : Text, p = before ++ rest ∧ before.bytes = i ∧ ∀ k, ¬ d.Matches rest k) ∧
    ∀ k n, d.matchToken? p i = some (k, n) ↔
      ∃ before rest : Text, p = before ++ rest ∧ before.bytes = i ∧ d.Matches rest k ∧
        n = (d.spell k).bytes ∧ 0 < n ∧ (∀ k', d.Matches rest k' → (d.spell k').bytes ≤ n) ∧
        ∀ k', k'.index < k.index → d.Matches rest k' → (d.spell k').bytes ≠ n := by
  constructor
  · rw [matchToken?, Text.bind_fromByte?_eq_none_iff]
    simp only [longestToken?_eq_none_iff]
  · intro k n
    rw [matchToken?, Text.bind_fromByte?_eq_some_iff]
    constructor
    · rintro ⟨before, rest, hp, hi, hlongest⟩
      obtain ⟨hk, hn, hmax, hfirst⟩ := d.longestToken?_eq_some_iff.1 hlongest
      exact ⟨before, rest, hp, hi, hk, hn, d.longestToken?_pos hlongest, hmax, hfirst⟩
    · rintro ⟨before, rest, hp, hi, hk, hn, -, hmax, hfirst⟩
      exact ⟨before, rest, hp, hi, d.longestToken?_eq_some_iff.2 ⟨hk, hn, hmax, hfirst⟩⟩

/-- Of the tokens that are spelled alike, here with one letter of two bytes, the first is read. -/
example :
    let d : Dialect :=
      { name := [], spell := fun k => if k = .month ∨ k = .minute then ['é'] else [], reserved := [],
        escape := fun t _ => t, recognize := fun _ _ => none }
    d.matchToken? ['a', 'é', 'é'] 1 = some (.month, 2) ∧ d.matchToken? ['a', 'é', 'é'] 2 = none := by
  decide

end Dialect

end CellFormat
