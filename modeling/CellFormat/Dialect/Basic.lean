import CellFormat.Dialect.Token
/-!
# Dialects

A dialect is plain data: the spelling of every token, the characters that force
a literal to be quoted, how a literal is quoted, and how a quoted region is
recognized inside a pattern. Nothing is assumed of these parts. Spellings may be
missing, equal, or begin one another, and a recognizer may claim any region;
`readRegion?` and `matchToken?` are what a reader of patterns relies on.
-/

namespace CellFormat

/-- A quoted region of a pattern: the text it stands for and the bytes it takes up,
quotes included. -/
structure Region where
  value : Text
  bytes : Nat
  deriving DecidableEq, Repr

/-- A way of writing date patterns. Two dialects of one name count as the same. -/
structure Dialect where
  name : Text
  /-- The spelling of each token; the empty text means that there is none. -/
  spell : Token → Text
  /-- The characters that force a literal to be quoted. -/
  reserved : Text
  /-- Quotes a literal, given the reserved characters. -/
  escape : (literal reserved : Text) → Text
  /-- Recognizes a quoted region that starts at a byte position of a pattern. -/
  recognize : (pattern : Text) → (position : Nat) → Option Region

namespace Dialect

variable (d : Dialect)

/-- The spelling of a token, if the dialect has one. -/
def spelling? (k : Token) : Option Text :=
  if d.spell k = [] then none else some (d.spell k)

/-- A literal as it is written in a pattern. -/
def escapeLiteral (literal : Text) : Text := d.escape literal d.reserved

/-- The quoted region at a position. A region that takes up no bytes is none. -/
def readRegion? (pattern : Text) (position : Nat) : Option Region :=
  (d.recognize pattern position).filter fun r => 0 < r.bytes

/-- The better of the best match so far and token `k`: a spelling has to be longer, in
bytes, to take the place of one that was met before it. -/
def betterMatch (rest : Text) (best : Option (Token × Nat)) (k : Token) : Option (Token × Nat) :=
  match d.spelling? k with
  | none => best
  | some s =>
    if s.isPrefixOf rest && best.all (fun b => b.2 < s.bytes) then some (k, s.bytes) else best

/-- The token with the longest spelling that `rest` begins with, and that length. Of equally
long spellings the one of the earlier token is taken. -/
def longestToken? (rest : Text) : Option (Token × Nat) :=
  Token.all.foldl (d.betterMatch rest) none

/-- The longest token at a position. -/
def matchToken? (pattern : Text) (position : Nat) : Option (Token × Nat) :=
  (pattern.fromByte? position).bind d.longestToken?

theorem readRegion?_pos {p : Text} {i : Nat} {r : Region} (h : d.readRegion? p i = some r) :
    0 < r.bytes := by
  simpa using (Option.filter_eq_some_iff.1 h).2

theorem spelling?_ne_nil {k : Token} {s : Text} (h : d.spelling? k = some s) : s ≠ [] := by
  simp only [spelling?] at h
  split at h <;> cases h
  assumption

theorem betterMatch_pos {rest : Text} {best : Option (Token × Nat)} (k : Token)
    (hb : ∀ b ∈ best, 0 < b.2) : ∀ b ∈ d.betterMatch rest best k, 0 < b.2 := by
  unfold betterMatch
  split
  · exact hb
  · next s hs =>
    split
    · rintro b ⟨⟩
      exact Text.bytes_pos (d.spelling?_ne_nil hs)
    · exact hb

theorem longestToken?_pos {rest : Text} {k : Token} {n : Nat}
    (h : d.longestToken? rest = some (k, n)) : 0 < n := by
  have grow : ∀ (ks : List Token) (best : Option (Token × Nat)), (∀ b ∈ best, 0 < b.2) →
      ∀ b ∈ ks.foldl (d.betterMatch rest) best, 0 < b.2 := by
    intro ks
    induction ks with
    | nil => exact fun _ h => h
    | cons k ks ih => exact fun best hb => ih _ (d.betterMatch_pos k hb)
  exact grow Token.all none (by simp) (k, n) h

theorem matchToken?_pos {p : Text} {i : Nat} {k : Token} {n : Nat}
    (h : d.matchToken? p i = some (k, n)) : 0 < n := by
  obtain ⟨rest, -, hr⟩ := Option.bind_eq_some_iff.1 h
  exact d.longestToken?_pos hr

end Dialect

end CellFormat
