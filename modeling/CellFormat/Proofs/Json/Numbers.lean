import CellFormat.Decimal.Layout
import CellFormat.Json.Numbers
import CellFormat.Proofs.Decimal.Digits
import CellFormat.Proofs.Decimal.Value
/-!
# Numbers are read back

A number is written from its parts (`NumberParts.write`), and parts of a proper
form are read back as they are (`readParts_write`). The texts of numbers in
payloads are such parts: digits with a point among them, before or behind them,
or with a power of ten. Whatever the form, the value is the one of the digits at
their place (`toBinary64_pointed`, `toBinary64_powered`), so a finite number is
read back (`readNumber_interchange`).
-/

namespace CellFormat.Json

/-! ## Parts of a number -/

/-- What may stand behind a value: nothing, or a character that a list or an object goes on with
or ends in. -/
def Ends (rest : Text) : Prop := ∀ c ∈ rest.head?, c = ',' ∨ c = ']' ∨ c = '}'

/-- The text does not go on with a character that a number may go on with. -/
def Stops (rest : Text) : Prop := ∀ c ∈ rest.head?, c.isDigit = false ∧ c ∉ ['.', 'e', 'E']

theorem Ends.stops {rest : Text} (h : Ends rest) : Stops rest := by
  intro c hc
  rcases h c hc with rfl | rfl | rfl <;> decide

/-- The text does not go on with a digit. -/
def NoDigit (rest : Text) : Prop := ∀ c ∈ rest.head?, c.isDigit = false

theorem spanDigits_append {t rest : Text} (ht : ∀ c ∈ t, c.isDigit) (hrest : NoDigit rest) :
    spanDigits (t ++ rest) = (t, rest) := by
  have hstop : rest.takeWhile Char.isDigit = [] ∧ rest.dropWhile Char.isDigit = rest := by
    cases rest with
    | nil => exact ⟨rfl, rfl⟩
    | cons c rest =>
      have hc : c.isDigit = false := hrest c rfl
      simp [hc]
  rw [spanDigits, List.takeWhile_append_of_pos ht, List.dropWhile_append_of_pos ht, hstop.1, hstop.2,
    List.append_nil]

theorem takeWhile_isDigit_append {t rest : Text} (ht : ∀ c ∈ t, c.isDigit) (hrest : NoDigit rest) :
    (t ++ rest).takeWhile Char.isDigit = t :=
  congrArg Prod.fst (spanDigits_append ht hrest)

/-- A zero alone, or digits that do not start with one. -/
structure IsWhole (t : Text) : Prop where
  numeral : t.IsNumeral
  zero_alone : t.head? = some '0' → t = ['0']

theorem isWhole_zero : IsWhole ['0'] := ⟨⟨List.cons_ne_nil _ _, List.forall_mem_singleton.2 rfl⟩, fun _ => rfl⟩

def writeFraction (digits : Text) : Text := if digits = [] then [] else '.' :: digits

def Power.write (p : Power) : Text := 'e' :: (if p.negative then '-' else '+') :: p.digits

/-- The text of a number with these parts. A power of ten has a sign in front of it. -/
def NumberParts.write (n : NumberParts) : Text :=
  (if n.negative then ['-'] else []) ++ (n.whole ++ (writeFraction n.fraction ++ (n.power.elim [] Power.write)))

structure NumberParts.Proper (n : NumberParts) : Prop where
  whole : IsWhole n.whole
  fraction : ∀ c ∈ n.fraction, c.isDigit
  power : ∀ p ∈ n.power, p.digits.IsNumeral

/-- The text of a power of ten, with its letter in either case. A plus sign may be left out. -/
def SpellsPower (w : Text) : Option Power → Prop
  | none => w = []
  | some p => ∃ letter ∈ ['e', 'E'], ∃ sign ∈ if p.negative then [['-']] else [[], ['+']],
      w = letter :: (sign ++ p.digits)

/-- The text is a number with these parts. -/
structure SpellsNumber (w : Text) (n : NumberParts) : Prop where
  proper : n.Proper
  spelled : ∃ power, SpellsPower power n.power ∧
    w = (if n.negative then ['-'] else []) ++ (n.whole ++ (writeFraction n.fraction ++ power))

theorem NumberParts.Proper.spells_write {n : NumberParts} (h : n.Proper) : SpellsNumber n.write n := by
  refine ⟨h, _, ?_, rfl⟩
  cases n.power with
  | none => rfl
  | some p =>
    obtain ⟨negative, digits⟩ := p
    cases negative with
    | true => exact ⟨'e', List.mem_cons_self, ['-'], List.mem_cons_self, rfl⟩
    | false => exact ⟨'e', List.mem_cons_self, ['+'], List.mem_cons_of_mem _ List.mem_cons_self, rfl⟩

section
variable (atEnd : Fault) {rest : Text}

theorem readWhole_append {whole : Text} (h : IsWhole whole) (hrest : NoDigit rest) :
    readWhole atEnd (whole ++ rest) = .ok (whole, rest) := by
  obtain ⟨⟨hne, hdigits⟩, hzero⟩ := h
  obtain ⟨c, t, rfl⟩ := List.exists_cons_of_ne_nil hne
  by_cases hc : c = '0'
  · subst hc
    obtain rfl : t = [] := (List.cons.inj (hzero rfl)).2
    have hnone := takeWhile_isDigit_append (List.forall_mem_nil _) hrest
    rw [List.nil_append] at hnone
    simp [readWhole, hnone]
  · have hspan := spanDigits_append hdigits hrest
    have hsome := takeWhile_isDigit_append hdigits hrest
    rw [List.cons_append] at hspan hsome ⊢
    unfold readWhole
    split
    · contradiction
    · next heq => exact absurd (List.cons.inj heq).1 hc
    · rw [hsome, hspan]
      rfl

theorem readFraction_append {digits : Text} (h : ∀ c ∈ digits, c.isDigit) (hrest : NoDigit rest)
    (hpoint : rest.head? ≠ some '.') :
    readFraction atEnd (writeFraction digits ++ rest) = .ok (digits, rest) := by
  unfold writeFraction
  split
  · next hnil =>
    subst hnil
    unfold readFraction
    split
    · next heq =>
      rw [List.nil_append] at heq
      exact absurd (congrArg List.head? heq) hpoint
    · rfl
  · next hne =>
    rw [List.cons_append, readFraction, takeWhile_isDigit_append h hrest, spanDigits_append h hrest,
      if_neg (by simpa using hne)]

theorem readPowerDigits_append (negative : Bool) {digits : Text} (h : digits.IsNumeral) (hrest : NoDigit rest) :
    readPowerDigits atEnd negative (digits ++ rest) = .ok (⟨negative, digits⟩, rest) := by
  rw [readPowerDigits, takeWhile_isDigit_append h.2 hrest, spanDigits_append h.2 hrest,
    if_neg (by simpa using h.1)]

theorem Stops.noDigit (h : Stops rest) : NoDigit rest := fun c hc => (h c hc).1

theorem readPower_append {w : Text} {power : Option Power} (hdigits : ∀ p ∈ power, p.digits.IsNumeral)
    (h : SpellsPower w power) (hrest : Stops rest) : readPower atEnd (w ++ rest) = .ok (power, rest) := by
  cases power with
  | none =>
    cases h
    cases rest with
    | nil => rfl
    | cons c rest =>
      have hc : ¬ (c = 'e' ∨ c = 'E') := by
        have hstop := (hrest c rfl).2
        simp only [List.mem_cons, not_or] at hstop
        exact not_or.2 ⟨hstop.2.1, hstop.2.2.1⟩
      rw [List.nil_append, readPower, if_neg hc]
  | some p =>
    obtain ⟨negative, digits⟩ := p
    obtain ⟨letter, hletter, sign, hsign, rfl⟩ := h
    have hnumeral : digits.IsNumeral := hdigits _ rfl
    have hread := readPowerDigits_append atEnd negative hnumeral hrest.noDigit
    have hcase : letter = 'e' ∨ letter = 'E' := List.mem_pair.1 hletter
    have hsigned : readSignedPower atEnd (sign ++ digits ++ rest) = .ok (⟨negative, digits⟩, rest) := by
      cases negative with
      | true =>
        cases List.mem_singleton.1 hsign
        exact hread
      | false =>
        rcases List.mem_pair.1 hsign with rfl | rfl
        · -- Without a sign, the first digit has to be told from one.
          obtain ⟨hne, hdigit⟩ := hnumeral
          obtain ⟨c, t, rfl⟩ := List.exists_cons_of_ne_nil hne
          have hc := hdigit c List.mem_cons_self
          rw [List.nil_append]
          unfold readSignedPower
          split
          · next heq => cases heq; cases hc
          · next heq => cases heq; cases hc
          · exact hread
        · exact hread
    rw [List.cons_append, readPower, if_pos hcase, hsigned]
    rfl

/-- A power of ten ends the digits before it. -/
theorem noDigit_power_append {w : Text} {power : Option Power} (h : SpellsPower w power) (hrest : Stops rest) :
    NoDigit (w ++ rest) ∧ (w ++ rest).head? ≠ some '.' := by
  cases power with
  | none =>
    cases h
    refine ⟨hrest.noDigit, fun hpoint => ?_⟩
    exact (hrest '.' hpoint).2 List.mem_cons_self
  | some p =>
    obtain ⟨letter, hletter, sign, -, rfl⟩ := h
    constructor
    · rintro c ⟨⟩
      rcases List.mem_pair.1 hletter with rfl | rfl <;> decide
    · rintro ⟨⟩
      exact absurd hletter (by decide)

theorem readUnsigned_append {n : NumberParts} {power : Text} (h : n.Proper) (hpower : SpellsPower power n.power)
    (hrest : Stops rest) :
    readUnsigned atEnd n.negative (n.whole ++ (writeFraction n.fraction ++ power) ++ rest) = .ok (n, rest) := by
  obtain ⟨hnone, hpoint⟩ := noDigit_power_append hpower hrest
  have hfraction : NoDigit (writeFraction n.fraction ++ (power ++ rest)) := by
    unfold writeFraction
    split
    · exact hnone
    · intro c hc
      cases hc
      decide
  rw [List.append_assoc, List.append_assoc, readUnsigned, readWhole_append atEnd h.whole hfraction]
  simp only [bind, Except.bind, readFraction_append atEnd h.fraction hnone hpoint,
    readPower_append atEnd h.power hpower hrest]

/-- The parts of a number are read from its text. -/
theorem readParts_append {w : Text} {n : NumberParts} (h : SpellsNumber w n) (hrest : Stops rest) :
    readParts atEnd (w ++ rest) = .ok (n, rest) := by
  obtain ⟨hproper, power, hpower, rfl⟩ := h
  have hread := readUnsigned_append atEnd hproper hpower hrest
  rw [List.append_assoc]
  cases hneg : n.negative with
  | true =>
    rw [hneg] at hread
    exact hread
  | false =>
    rw [hneg] at hread
    obtain ⟨hne, hdigits⟩ := hproper.whole.numeral
    obtain ⟨c, t, hw⟩ := List.exists_cons_of_ne_nil hne
    rw [if_neg Bool.false_ne_true, List.nil_append]
    rw [hw, List.cons_append, List.cons_append] at hread ⊢
    unfold readParts
    split
    · next heq =>
      rw [hw, (List.cons.inj heq).1] at hdigits
      exact absurd (hdigits '-' List.mem_cons_self) (by decide)
    · exact hread

/-- Proper parts are read back. -/
theorem readParts_write {n : NumberParts} (h : n.Proper) (hrest : Ends rest) :
    readParts atEnd (n.write ++ rest) = .ok (n, rest) :=
  readParts_append atEnd h.spells_write hrest.stops

end

/-! ## Their values -/

theorem afterExcess?_eq_none {n : Nat} {t : Text} (h : Nat.ofDigitChars 10 t n ≤ 0x7FFFFFFF) :
    afterExcess? n t = none := by
  induction t generalizing n with
  | nil => rfl
  | cons c t ih =>
    -- More digits only make the number larger.
    have hgrow : 10 * n + (c.toNat - '0'.toNat) ≤ Nat.ofDigitChars 10 t (10 * n + (c.toNat - '0'.toNat)) := by
      rw [Nat.ofDigitChars_eq_ofDigitChars_zero]
      exact Nat.le_add_right_of_le (Nat.le_mul_of_pos_left _ (Nat.pow_pos (by decide)))
    rw [Nat.ofDigitChars_cons] at h
    rw [afterExcess?, if_neg (by omega), ih h]

namespace NumberParts

variable {n : NumberParts} {rest : Text}

theorem excess?_eq_none (h : ∀ p ∈ n.power, p.negative = false → Decimal.natOfDigits p.digits ≤ 0x7FFFFFFF) :
    n.excess? = none := by
  unfold excess?
  split
  · rfl
  · next p hp =>
    split
    · rfl
    · next hcond =>
      refine afterExcess?_eq_none (h p hp ?_)
      simp only [Bool.or_eq_true, not_or] at hcond
      simpa using hcond.1

/-- Parts that are no integer are read back as the number nearest to their value. -/
theorem readNumber_write {negative : Bool} {m : Magnitude} (hn : n.Proper)
    (hfloat : n.fraction ≠ [] ∨ n.power.isSome) (hexcess : n.excess? = none)
    (hvalue : n.toBinary64 = .finite negative m) (hrest : Ends rest) :
    readNumber (n.write ++ rest) = .ok (.float (.finite negative m), rest) := by
  have hinteger : n.integer? = none := if_pos hfloat
  simp only [readNumber, readParts_write .endInValue hn hrest, bind, Except.bind, hinteger, hexcess, hvalue]

/-- Digits with a point `places` digits after their start, and a digit on either side of it. -/
def pointed (negative : Bool) (digits : Text) (places : Int) : NumberParts :=
  if places ≤ 0 then ⟨negative, ['0'], List.replicate (-places).toNat '0' ++ digits, none⟩
  else if places.toNat < digits.length then ⟨negative, digits.take places.toNat, digits.drop places.toNat, none⟩
  else ⟨negative, digits ++ List.replicate (places.toNat - digits.length) '0', ['0'], none⟩

/-- One digit, the others behind a point, and a power of ten. -/
def powered (negative : Bool) (digits : Text) (power : Int) : NumberParts :=
  ⟨negative, digits.take 1, digits.drop 1, some ⟨power < 0, Text.ofNat power.natAbs⟩⟩

section
variable {negative : Bool} {digits : Text} {places power : Int}

theorem isWhole_take {k : Nat} (hd : digits.IsNumeral) (h0 : digits.head? ≠ some '0') (hk : 0 < k) :
    IsWhole (digits.take k) := by
  obtain ⟨c, t, rfl⟩ := List.exists_cons_of_ne_nil hd.1
  obtain ⟨k, rfl⟩ := Nat.exists_eq_add_of_lt hk
  rw [Nat.zero_add, List.take_succ_cons]
  refine ⟨⟨List.cons_ne_nil _ _, fun d hmem => hd.2 d ?_⟩, fun h => absurd h h0⟩
  exact List.mem_of_mem_take (i := k + 1) (List.take_succ_cons ▸ hmem)

theorem isWhole_append {zeros : Text} (hd : digits.IsNumeral) (h0 : digits.head? ≠ some '0')
    (hz : ∀ c ∈ zeros, c.isDigit) : IsWhole (digits ++ zeros) := by
  refine ⟨hd.append hz, fun h => absurd ?_ h0⟩
  rwa [List.head?_append_of_ne_nil _ hd.1] at h

theorem proper_pointed (hd : digits.IsNumeral) (h0 : digits.head? ≠ some '0') :
    (pointed negative digits places).Proper := by
  unfold pointed
  split
  · exact ⟨isWhole_zero, List.forall_mem_append.2 ⟨Text.isDigit_of_mem_zeros, hd.2⟩, fun p hp => by cases hp⟩
  · split
    · exact ⟨isWhole_take hd h0 (by omega), fun c hc => hd.2 c (List.mem_of_mem_drop hc), fun p hp => by cases hp⟩
    · exact ⟨isWhole_append hd h0 Text.isDigit_of_mem_zeros, isWhole_zero.numeral.2, fun p hp => by cases hp⟩

theorem fraction_pointed_ne_nil (hd : digits.IsNumeral) : (pointed negative digits places).fraction ≠ [] := by
  unfold pointed
  split
  · exact List.append_ne_nil_of_right_ne_nil _ hd.1
  · split
    · next hlt => simpa using hlt
    · exact List.cons_ne_nil _ _

theorem power_pointed : (pointed negative digits places).power = none := by
  unfold pointed
  split
  · rfl
  · split <;> rfl

theorem toBinary64_pointed :
    (pointed negative digits places).toBinary64 =
      Decimal.toBinary64 negative ⟨Decimal.natOfDigits digits, places - digits.length⟩ := by
  unfold pointed
  split
  · next hle =>
    have hdigits : Decimal.natOfDigits (['0'] ++ (List.replicate (-places).toNat '0' ++ digits)) =
        Decimal.natOfDigits digits := Decimal.natOfDigits_zeros_append ((-places).toNat + 1) digits
    simp only [toBinary64, NumberParts.digits, exponent, hdigits, List.length_append, List.length_replicate]
    congr 2
    omega
  · split
    · next hlt =>
      simp only [toBinary64, NumberParts.digits, exponent, List.take_append_drop, List.length_drop]
      congr 2
      omega
    · next hle =>
      have hdigits : Decimal.natOfDigits (digits ++ List.replicate (places.toNat - digits.length) '0' ++ ['0']) =
          Decimal.natOfDigits digits * Nat.pow 10 (places.toNat - digits.length + 1) := by
        rw [← Decimal.natOfDigits_append_zeros, List.replicate_succ', List.append_assoc]
      simp only [toBinary64, NumberParts.digits, exponent, hdigits, Decimal.toBinary64_shift, List.length_singleton]
      congr 2
      omega

theorem proper_powered (hd : digits.IsNumeral) (h0 : digits.head? ≠ some '0') :
    (powered negative digits power).Proper where
  whole := isWhole_take hd h0 Nat.one_pos
  fraction c hc := hd.2 c (List.mem_of_mem_drop hc)
  power p hp := by
    cases hp
    exact Text.isNumeral_ofNat _

theorem toBinary64_powered (hd : digits ≠ []) :
    (powered negative digits power).toBinary64 =
      Decimal.toBinary64 negative ⟨Decimal.natOfDigits digits, power + 1 - digits.length⟩ := by
  have hlen := List.length_pos_iff.2 hd
  have hexponent : (powered negative digits power).exponent = power := by
    simp only [powered, exponent, Decimal.natOfDigits_ofNat, decide_eq_true_eq]
    split <;> omega
  simp only [toBinary64, NumberParts.digits, hexponent]
  simp only [powered, List.take_append_drop, List.length_drop]
  congr 2
  omega

end

end NumberParts

/-! ## Written numbers -/

section
open NumberLayout NumberParts
variable {negative : Bool} {digits : Text}

theorem write_pointed (hd : digits ≠ []) (places : Int) :
    (pointed negative digits places).write =
      (if negative then ['-'] else []) ++ interchange.writeOut digits places := by
  unfold pointed writeOut
  split
  · simp [NumberParts.write, writeFraction, hd]
  · split
    · next hlt => simp [NumberParts.write, writeFraction, hlt]
    · simp [NumberParts.write, writeFraction, interchange]

theorem write_powered (power : Int) :
    (powered negative digits power).write = (if negative then ['-'] else []) ++ withPower digits power := by
  have hfraction : writeFraction (digits.drop 1) = if digits.length ≤ 1 then [] else '.' :: digits.drop 1 := by
    simp only [writeFraction, List.drop_eq_nil_iff]
  have hpower : Power.write ⟨power < 0, Text.ofNat power.natAbs⟩ =
      'e' :: (if power < 0 then [] else ['+']) ++ Text.ofInt power := by
    cases power with
    | ofNat n => rfl
    | negSucc n => simp [Power.write, Text.ofInt, Int.negSucc_lt_zero]
  rw [NumberParts.write, powered, Option.elim_some, hfraction, hpower, withPower]
  simp only [List.append_assoc]

/-- The text of a finite number other than zero consists of the parts of its shortest decimal. -/
theorem exists_write_interchange (negative : Bool) {m : Magnitude} (hm : m.units ≠ 0) :
    ∃ n : NumberParts, n.write = interchange.write (.finite negative m) ∧ n.Proper ∧
      (n.fraction ≠ [] ∨ n.power.isSome) ∧ n.excess? = none ∧ n.toBinary64 = .finite negative m := by
  obtain ⟨d, hs⟩ : ∃ d, d = Decimal.shortest interchange.tie m := ⟨_, rfl⟩
  have hd : d.digits ≠ 0 := hs ▸ Decimal.digits_shortest_ne_zero hm
  have hvalue : d.toBinary64 negative = .finite negative m := hs ▸ Decimal.toBinary64_shortest ..
  have hnum := Decimal.isNumeral_significant hd
  have hzero := Decimal.head_significant_ne_zero hd
  obtain ⟨power, hp⟩ : ∃ power, power = d.exponent + (Text.ofNat d.digits).length - 1 := ⟨_, rfl⟩
  have hpower : power ≤ 400 := hp ▸ Decimal.power_le_of_toBinary64 hd hvalue
  have hplace : Decimal.toBinary64 negative
      ⟨Decimal.natOfDigits (Decimal.significant d.digits), power + 1 - (Decimal.significant d.digits).length⟩ =
      .finite negative m := by
    rw [hp, Int.sub_add_cancel]
    exact (Decimal.toBinary64_significant negative d).trans hvalue
  have hwrite : interchange.write (.finite negative m) = (if negative then ['-'] else []) ++
      if interchange.writtenFrom ≤ power ∧ power < interchange.writtenBelow then
        interchange.writeOut (Decimal.significant d.digits) (power + 1)
      else withPower (Decimal.significant d.digits) power := by
    rw [NumberLayout.write, if_neg hm, ← hs, writeDecimal, Decimal.significant, hp]
  by_cases hout : interchange.writtenFrom ≤ power ∧ power < interchange.writtenBelow
  · rw [hwrite, if_pos hout]
    refine ⟨_, write_pointed hnum.1 _, proper_pointed hnum hzero, .inl (fraction_pointed_ne_nil hnum),
      excess?_eq_none fun p hp => ?_, ?_⟩
    · rw [power_pointed] at hp
      cases hp
    · rw [toBinary64_pointed, hplace]
  · rw [hwrite, if_neg hout]
    refine ⟨_, write_powered _, proper_powered hnum hzero, .inr rfl, excess?_eq_none fun p hp hpos => ?_, ?_⟩
    · cases hp
      rw [decide_eq_false_iff_not] at hpos
      rw [Decimal.natOfDigits_ofNat]
      omega
    · rw [toBinary64_powered hnum.1, hplace]

variable {rest : Text}

theorem readNumber_interchange (negative : Bool) (m : Magnitude) (hrest : Ends rest) :
    readNumber (interchange.write (.finite negative m) ++ rest) = .ok (.float (.finite negative m), rest) := by
  by_cases hm : m.units = 0
  · obtain ⟨units, hrep⟩ := m
    cases hm
    have hn : NumberParts.Proper ⟨negative, ['0'], ['0'], none⟩ :=
      ⟨isWhole_zero, isWhole_zero.numeral.2, fun p hp => by cases hp⟩
    have hvalue : NumberParts.toBinary64 ⟨negative, ['0'], ['0'], none⟩ = .finite negative .zero := rfl
    have hread := readNumber_write hn (.inl (List.cons_ne_nil _ _)) rfl hvalue hrest
    cases negative <;> exact hread
  · obtain ⟨n, hwrite, hproper, hfloat, hexcess, hvalue⟩ := exists_write_interchange negative hm
    rw [← hwrite]
    exact readNumber_write hproper hfloat hexcess hvalue hrest

theorem readNumber_ofNat {n : Nat} (hn : n ≤ 0xFFFFFFFFFFFFFFFF) (hrest : Ends rest) :
    readNumber (Text.ofNat n ++ rest) = .ok (.natural n, rest) := by
  have hzero : (Text.ofNat n).head? = some '0' → Text.ofNat n = ['0'] := by
    intro hhead
    by_cases h : n = 0
    · rw [h]
      rfl
    · exact absurd hhead (Text.head_ofNat_ne_zero h)
  have hproper : NumberParts.Proper ⟨false, Text.ofNat n, [], none⟩ :=
    ⟨⟨Text.isNumeral_ofNat n, hzero⟩, List.forall_mem_nil _, fun p hp => by cases hp⟩
  have hwrite : NumberParts.write ⟨false, Text.ofNat n, [], none⟩ = Text.ofNat n := by
    simp [NumberParts.write, writeFraction]
  have hinteger : NumberParts.integer? ⟨false, Text.ofNat n, [], none⟩ = some (.natural n) := by
    simp [NumberParts.integer?, NumberParts.digits, Decimal.natOfDigits_ofNat, hn]
  have hparts := readParts_write .endInValue hproper hrest
  rw [hwrite] at hparts
  simp only [readNumber, hparts, bind, Except.bind, hinteger]

end

end CellFormat.Json
