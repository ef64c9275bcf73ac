import CellFormat.Json.Fault
/-!
# Strings in JSON text

Writing a string, reading one, and skipping one whose text is not needed. A
skipped string is checked for its shape only: its escapes may stand for lone
halves of surrogate pairs.
-/

namespace CellFormat.Json

/-! ## Writing -/

/-- A hexadecimal digit. -/
def hexDigit (n : Nat) : Char := Nat.digitChar n

/-- A character as it stands in a string: quotes, backslashes and controls are escaped. -/
def writeChar (c : Char) : Text :=
  if c = '"' then ['\\', '"']
  else if c = '\\' then ['\\', '\\']
  else if c = '\n' then ['\\', 'n']
  else if c = '\r' then ['\\', 'r']
  else if c = '\t' then ['\\', 't']
  else if c = '\x08' then ['\\', 'b']
  else if c = '\x0c' then ['\\', 'f']
  else if c.toNat < 0x20 then
    ['\\', 'u', '0', '0', hexDigit (c.toNat / 16), hexDigit (c.toNat % 16)]
  else [c]

/-- A string in its quotes. -/
def writeString (t : Text) : Text := '"' :: t.flatMap writeChar ++ ['"']

/-! ## Escapes -/

/-- The value of a hexadecimal digit. -/
def hexValue? (c : Char) : Option Nat :=
  if c.isDigit then some (c.toNat - '0'.toNat)
  else if 'a' ≤ c ∧ c ≤ 'f' then some (c.toNat - 'a'.toNat + 10)
  else if 'A' ≤ c ∧ c ≤ 'F' then some (c.toNat - 'A'.toNat + 10)
  else none

/-- The value of four hexadecimal digits. -/
def hexQuad? (a b c d : Char) : Option Nat := do
  some ((← hexValue? a) * 4096 + (← hexValue? b) * 256 + (← hexValue? c) * 16 + (← hexValue? d))

/-- The four digits after `\u`. The four bytes there count as read even if they are no
digits. -/
def readHexQuad (rest : Text) : Except Failure (Nat × Text) :=
  if rest.bytes < 4 then failAt [] .endInString
  else
    let fault : Failure := { fault := .invalidEscape, left := rest.bytes - 4 }
    match rest with
    | a :: b :: c :: d :: rest =>
      match hexQuad? a b c d with
      | some n => .ok (n, rest)
      | none => .error fault
    | _ => .error fault

/-- The second half of a surrogate pair, with the escape it has to be written in. -/
def readLowSurrogate : Text → Except Failure (Nat × Text)
  | [] => failAt [] .endInString
  | ['\\'] => failAt [] .endInString
  | '\\' :: 'u' :: rest => do
    let (low, rest) ← readHexQuad rest
    if 0xDC00 ≤ low ∧ low ≤ 0xDFFF then .ok (low, rest) else failAt rest .loneSurrogate
  | '\\' :: rest => failNext rest .brokenSurrogatePair
  | rest => failNext rest .brokenSurrogatePair

/-- The character that the two halves of a surrogate pair stand for. -/
def joinSurrogates (high low : Nat) : Char :=
  Char.ofNat ((high - 0xD800) * 0x400 + (low - 0xDC00) + 0x10000)

/-- The character that an escape after `\u` stands for, on its own or as the first half of
a surrogate pair. -/
def readUnicode (rest : Text) : Except Failure (Char × Text) := do
  let (n, rest) ← readHexQuad rest
  if 0xDC00 ≤ n ∧ n ≤ 0xDFFF then failAt rest .loneSurrogate
  else if 0xD800 ≤ n ∧ n ≤ 0xDBFF then
    let (low, rest) ← readLowSurrogate rest
    .ok (joinSurrogates n low, rest)
  else .ok (Char.ofNat n, rest)

/-- The character that a single character after a backslash stands for. -/
def shortEscape? : Char → Option Char
  | '"' => some '"'
  | '\\' => some '\\'
  | '/' => some '/'
  | 'b' => some '\x08'
  | 'f' => some '\x0c'
  | 'n' => some '\n'
  | 'r' => some '\r'
  | 't' => some '\t'
  | _ => none

/-- The character that an escape stands for, from after its backslash. -/
def readEscape : Text → Except Failure (Char × Text)
  | [] => failAt [] .endInString
  | c :: rest =>
    if c = 'u' then readUnicode rest
    else
      match shortEscape? c with
      | some d => .ok (d, rest)
      | none => failNext (c :: rest) .invalidEscape

/-! ## Reading -/

theorem length_of_readHexQuad {rest rest' : Text} {n : Nat}
    (h : readHexQuad rest = .ok (n, rest')) : rest'.length < rest.length := by
  unfold readHexQuad at h
  split at h
  · cases h
  · simp only at h
    split at h
    · split at h
      · cases h; simp only [List.length_cons]; omega
      · cases h
    · cases h

theorem length_of_readLowSurrogate {rest rest' : Text} {n : Nat}
    (h : readLowSurrogate rest = .ok (n, rest')) : rest'.length < rest.length := by
  unfold readLowSurrogate at h
  split at h
  · cases h
  · cases h
  · next rest =>
    cases hq : readHexQuad rest with
    | error e => simp [hq, bind, Except.bind] at h
    | ok r =>
      obtain ⟨low, rest₂⟩ := r
      have := length_of_readHexQuad hq
      simp only [hq, bind, Except.bind] at h
      split at h
      · cases h; simp only [List.length_cons]; omega
      · cases h
  · cases h
  · cases h

theorem length_of_readUnicode {rest rest' : Text} {c : Char}
    (h : readUnicode rest = .ok (c, rest')) : rest'.length < rest.length := by
  unfold readUnicode at h
  cases hq : readHexQuad rest with
  | error e => simp [hq, bind, Except.bind] at h
  | ok r =>
    obtain ⟨n, rest₂⟩ := r
    have h1 := length_of_readHexQuad hq
    simp only [hq, bind, Except.bind] at h
    split at h
    · cases h
    · split at h
      · cases hl : readLowSurrogate rest₂ with
        | error e => simp [hl] at h
        | ok r =>
          obtain ⟨low, rest₃⟩ := r
          have h2 := length_of_readLowSurrogate hl
          simp only [hl, Except.ok.injEq, Prod.mk.injEq] at h
          obtain ⟨-, rfl⟩ := h
          omega
      · cases h; omega

theorem length_of_readEscape {rest rest' : Text} {c : Char} (h : readEscape rest = .ok (c, rest')) :
    rest'.length < rest.length := by
  unfold readEscape at h
  split at h
  · cases h
  · next c rest =>
    split at h
    · have := length_of_readUnicode h; simp only [List.length_cons]; omega
    · split at h
      · cases h; simp
      · cases h

/-- The characters of a string, from after its opening quote, and the text after its closing
quote. -/
def readChars (rest : Text) : Except Failure (Text × Text) :=
  match rest with
  | [] => failAt [] .endInString
  | '"' :: rest => .ok ([], rest)
  | '\\' :: rest =>
    match _ : readEscape rest with
    | .error e => .error e
    | .ok (c, rest) =>
      match readChars rest with
      | .error e => .error e
      | .ok (t, rest) => .ok (c :: t, rest)
  | c :: rest =>
    if c.toNat < 0x20 then failNext (c :: rest) .controlInString
    else
      match readChars rest with
      | .error e => .error e
      | .ok (t, rest) => .ok (c :: t, rest)
termination_by rest.length
decreasing_by
  · have := length_of_readEscape ‹_›; simp only [List.length_cons]; omega
  · simp

/-! ## Skipping -/

/-- The text after an escape, from after its backslash. -/
def skipEscape : Text → Except Failure Text
  | [] => failAt [] .endInString
  | c :: rest =>
    if c = 'u' then (readHexQuad rest).map (·.2)
    else if (shortEscape? c).isSome then .ok rest
    else failNext (c :: rest) .invalidEscape

theorem length_of_skipEscape {rest rest' : Text} (h : skipEscape rest = .ok rest') :
    rest'.length < rest.length := by
  unfold skipEscape at h
  split at h
  · cases h
  · next c rest =>
    split at h
    · cases hq : readHexQuad rest with
      | error e => simp [hq, Except.map] at h
      | ok r =>
        obtain ⟨n, rest₂⟩ := r
        have := length_of_readHexQuad hq
        simp only [hq, Except.map] at h
        cases h
        simp only [List.length_cons]; omega
    · split at h
      · cases h; simp
      · cases h

/-- The text after the closing quote, from after the opening one. -/
def skipChars (rest : Text) : Except Failure Text :=
  match rest with
  | [] => failAt [] .endInString
  | '"' :: rest => .ok rest
  | '\\' :: rest =>
    match _ : skipEscape rest with
    | .error e => .error e
    | .ok rest => skipChars rest
  | c :: rest => if c.toNat < 0x20 then failAt (c :: rest) .controlInString else skipChars rest
termination_by rest.length
decreasing_by
  · have := length_of_skipEscape ‹_›; simp only [List.length_cons]; omega
  · simp

end CellFormat.Json
