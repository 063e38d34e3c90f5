import ByteCursor.Proofs.Call.Result
import ByteCursor.Proofs.Decimal.Canonical
import ByteCursor.Proofs.Session.Reachable

/-!
# The language of the decimal reads

The 32-bit reads accept the numerals of the grammar whose value, taken without a bound, lies in the
range of the type.  Leading zeros do not matter, and the number of digits matters only to the count:
a program that checks it breaks off at digit `2 ^ 31`, and one that lets it wrap takes a multiple of
`2 ^ 32` digits for none.
-/

namespace ByteCursor

open Decimal

/-- The text starts with the numeral, whose value lies between the bounds. -/
def Decimal.Numeral.StartsWithin (numeral : Numeral) (isSigned : Bool) (least greatest : Int)
    (text : Bytes) : Prop :=
  (∃ rest, numeral.SplitsOff isSigned text rest) ∧
    least ≤ numeral.value ∧ numeral.value ≤ greatest

/-- Reading a decimal integer of the type from the cursor accepts the numerals with a value
between the bounds whose digits are counted, and nothing else. -/
structure Cursor.ReadsNumerals (cursor : Cursor) (type : IntType) (arithmetic : Arithmetic)
    (least greatest : Int) : Prop where
  /-- A success is a numeral of the grammar, which is read with its value and passed over. -/
  reads_iff : ∀ reply later,
    (((Call.readDecimal type).run cursor arithmetic).result = .ok reply ∧
        ((Call.readDecimal type).run cursor arithmetic).state.cursor = later) ↔
      ∃ numeral : Numeral,
        numeral.StartsWithin type.isSigned least greatest cursor.remaining ∧
        arithmetic.Counts numeral.digits.length ∧
        reply = .integer numeral.value ∧
        later = cursor.seek (cursor.position + numeral.octets.length)
  /-- The program breaks off only where the digits of a numeral cannot be counted. -/
  breaksOff_iff : ∀ breach,
    ((Call.readDecimal type).run cursor arithmetic).result = .error (.breach breach) ↔
      breach = .countOverflow ∧ ∃ (numeral : Numeral) (rest : Bytes),
        numeral.SplitsOff type.isSigned cursor.remaining rest ∧
        ¬ arithmetic.Reaches numeral.digits.length
  /-- Every other text is a miss that leaves the cursor where it was. -/
  misses : (∀ numeral : Numeral,
      numeral.StartsWithin type.isSigned least greatest cursor.remaining →
        ¬ arithmetic.Counts numeral.digits.length) →
    (∀ (numeral : Numeral) (rest : Bytes),
      numeral.SplitsOff type.isSigned cursor.remaining rest →
        arithmetic.Reaches numeral.digits.length) →
    ((Call.readDecimal type).run cursor arithmetic).result =
        .error (.error (.parse type.name cursor.position)) ∧
      ((Call.readDecimal type).run cursor arithmetic).state.cursor = cursor

namespace Decimal

variable {cursor : Cursor} {type : IntType} {arithmetic : Arithmetic} {numeral : Numeral}

/-- The only candidate is the numeral that the scanner splits off. -/
theorem startsWithin_iff {text : Bytes} {other : Numeral}
    (numeralEq : Numeral.ofText type.isSigned text = numeral) :
    other.StartsWithin type.isSigned type.least type.greatest text ↔
      other = numeral ∧ numeral.digits ≠ [] ∧ type.Holds numeral.value := by
  constructor
  · rintro ⟨⟨rest, splits⟩, bounds⟩
    have same : other = numeral := splits.ofText_eq.symm.trans numeralEq
    rw [← same]
    exact ⟨rfl, splits.digits_ne_nil, bounds⟩
  · rintro ⟨rfl, nonempty, bounds⟩
    rw [← numeralEq] at nonempty
    have splits := Numeral.splitsOff_ofText nonempty
    rw [numeralEq] at splits
    exact ⟨splits, bounds⟩

/-- If its digits can be counted, the candidate is read unless they are counted as none. -/
theorem startsWithin_and_counts_iff {text : Bytes} (other : Numeral)
    (numeralEq : Numeral.ofText type.isSigned text = numeral)
    (reaches : arithmetic.Reaches numeral.digits.length) :
    other.StartsWithin type.isSigned type.least type.greatest text ∧
        arithmetic.Counts other.digits.length ↔
      other = numeral ∧ numeral.IsCounted ∧ type.Holds numeral.value := by
  rw [startsWithin_iff numeralEq]
  constructor
  · rintro ⟨⟨rfl, -, holds⟩, counts⟩
    exact ⟨rfl, counts.2, holds⟩
  · rintro ⟨rfl, counted, holds⟩
    exact ⟨⟨rfl, counted.digits_ne_nil, holds⟩, reaches, counted⟩

/-- Where the digits can be counted, a numeral is read and everything else is a miss. -/
theorem readsNumerals_of_reaches (isWord : type = type.widened) (valid : cursor.Valid)
    (numeralEq : Numeral.ofText type.isSigned cursor.remaining = numeral)
    (reaches : arithmetic.Reaches numeral.digits.length) :
    cursor.ReadsNumerals type arithmetic type.least type.greatest := by
  have ran := run_readDecimal_word isWord valid numeralEq reaches
  have candidate (other : Numeral) := startsWithin_and_counts_iff other numeralEq reaches
  by_cases found : numeral.IsCounted ∧ type.Holds numeral.value
  · rw [if_pos found] at ran
    refine ⟨?reads, ?breaksOff, ?misses⟩
    case reads =>
      intro reply later
      rw [ran]
      constructor
      · rintro ⟨⟨rfl⟩, rfl⟩
        obtain ⟨starts, counts⟩ := (candidate numeral).mpr ⟨rfl, found⟩
        exact ⟨numeral, starts, counts, rfl, rfl⟩
      · rintro ⟨other, starts, counts, rfl, rfl⟩
        obtain ⟨rfl, -⟩ := (candidate other).mp ⟨starts, counts⟩
        exact ⟨rfl, rfl⟩
    case breaksOff =>
      intro breach
      rw [ran]
      refine iff_of_false nofun ?_
      rintro ⟨-, other, rest, splits, overflows⟩
      rw [← splits.ofText_eq, numeralEq] at overflows
      exact overflows reaches
    case misses =>
      intro noNumeral
      obtain ⟨starts, counts⟩ := (candidate numeral).mpr ⟨rfl, found⟩
      exact absurd counts (noNumeral numeral starts)
  · rw [if_neg found] at ran
    refine ⟨?reads, ?breaksOff, ?misses⟩
    case reads =>
      intro reply later
      rw [ran]
      refine iff_of_false (fun read => nomatch read.1) ?_
      rintro ⟨other, starts, counts, -⟩
      exact found ((candidate other).mp ⟨starts, counts⟩).2
    case breaksOff =>
      intro breach
      rw [ran]
      refine iff_of_false nofun ?_
      rintro ⟨-, other, rest, splits, overflows⟩
      rw [← splits.ofText_eq, numeralEq] at overflows
      exact overflows reaches
    case misses =>
      intro _ _
      rw [ran]
      exact ⟨rfl, rfl⟩

/-- Where the digits cannot be counted, the program breaks off. -/
theorem readsNumerals_of_overflow (valid : cursor.Valid)
    (numeralEq : Numeral.ofText type.isSigned cursor.remaining = numeral)
    (overflows : ¬ arithmetic.Reaches numeral.digits.length) :
    cursor.ReadsNumerals type arithmetic type.least type.greatest := by
  rw [Arithmetic.Reaches, not_forall] at overflows
  obtain ⟨rfl, long⟩ := overflows
  have ran := Call.run_readDecimal_overflow type valid numeralEq (Nat.not_lt.mp long)
  have nonempty : numeral.digits ≠ [] := fun missing => by
    rw [missing] at long
    exact long (by decide)
  rw [← numeralEq] at nonempty
  obtain ⟨rest, splits⟩ := Numeral.splitsOff_ofText nonempty
  rw [numeralEq] at splits
  refine ⟨?reads, ?breaksOff, ?misses⟩
  case reads =>
    intro reply later
    rw [ran]
    refine iff_of_false (fun read => nomatch read.1) ?_
    rintro ⟨other, starts, counts, -⟩
    obtain ⟨rfl, -⟩ := (startsWithin_iff numeralEq).mp starts
    exact long (counts.1 rfl)
  case breaksOff =>
    intro breach
    rw [ran]
    constructor
    · rintro ⟨rfl⟩
      exact ⟨rfl, numeral, rest, splits, fun reaches => long (reaches rfl)⟩
    · rintro ⟨rfl, -⟩
      rfl
  case misses =>
    intro _ everyReaches
    exact absurd (everyReaches numeral rest splits rfl) long

theorem readsNumerals_of_word (isWord : type = type.widened) (valid : cursor.Valid)
    (arithmetic : Arithmetic) : cursor.ReadsNumerals type arithmetic type.least type.greatest := by
  by_cases reaches :
      arithmetic.Reaches (Numeral.ofText type.isSigned cursor.remaining).digits.length
  · exact readsNumerals_of_reaches isWord valid rfl reaches
  · exact readsNumerals_of_overflow valid rfl reaches

/-- The 32-bit reads accept the numerals of their ranges whose digits are counted, and nothing
else. -/
theorem words_read_numerals (reachable : cursor.Reachable) (arithmetic : Arithmetic) :
    cursor.ReadsNumerals .u32 arithmetic 0 (2 ^ 32 - 1) ∧
      cursor.ReadsNumerals .i32 arithmetic (-2 ^ 31) (2 ^ 31 - 1) :=
  ⟨readsNumerals_of_word rfl reachable.valid arithmetic,
    readsNumerals_of_word rfl reachable.valid arithmetic⟩

/-- A negative number with leading zeros is read up to the comma behind it. -/
theorem words_read_numerals_padded :
    let cursor : Cursor :=
      { bytes := [0x20, 0x2d, 0x30, 0x31, 0x32, 0x2c], position := 0, options := {} }
    cursor.Reachable ∧
      ((Call.readDecimal .i32).run cursor .checked).result = .ok (.integer (-12)) ∧
      ((Call.readDecimal .i32).run cursor .checked).state.cursor = cursor.seek 5 := by
  intro cursor
  have reachable : cursor.Reachable := .ofText (by decide) (by decide) {}
  have found : (Numeral.ofText true cursor.remaining).digits ≠ [] := by decide
  have splits := Numeral.splitsOff_ofText found
  have counts : Arithmetic.checked.Counts (Numeral.ofText true cursor.remaining).digits.length :=
    Arithmetic.counts_of_lt (by decide) (by decide)
  have reads := ((words_read_numerals reachable .checked).2.reads_iff _ _).mpr
    ⟨_, ⟨splits, by decide, by decide⟩, counts, rfl, rfl⟩
  exact ⟨reachable, reads⟩

end Decimal

/-! ## Too many zeros -/

/-- The cursor at the start of the zeros that write zero, one more than so many. -/
def Cursor.onZeros (zeros : Nat) : Cursor where
  bytes := (Numeral.padded (.ofZeros zeros) 0).octets
  position := 0
  options := {}

namespace Decimal

variable {type : IntType} {zeros : Nat}

theorem remaining_onZeros (zeros : Nat) :
    (Cursor.onZeros zeros).remaining = (Numeral.padded (.ofZeros zeros) 0).octets := rfl

/-- A session can start at the zeros. -/
theorem reachable_onZeros (isWord : zeros + 2 < sizeLimit) :
    Session.Reachable { cursor := Cursor.onZeros zeros } := by
  refine .ofText ?nonempty ?short {}
  case nonempty =>
    apply List.ne_nil_of_length_pos
    rw [Numeral.length_octets_padded_zeros]
    exact Nat.succ_pos zeros
  case short =>
    rw [Numeral.length_octets_padded_zeros]
    exact isWord

/-- Zeros write zero in every type. -/
theorem startsWithin_onZeros (isSigned : Bool) (zeros : Nat) {least greatest : Int}
    (lower : least ≤ 0) (upper : 0 ≤ greatest) :
    (Numeral.padded (.ofZeros zeros) 0).StartsWithin isSigned least greatest
      (Cursor.onZeros zeros).remaining := by
  have splits : (Numeral.padded (.ofZeros zeros) 0).SplitsOff isSigned _ [] :=
    Numeral.splitsOff_padded (fun negative => absurd negative (Int.lt_irrefl 0)) startsApart_nil
  rw [List.append_nil, ← remaining_onZeros] at splits
  refine ⟨⟨[], splits⟩, ?_⟩
  rw [Numeral.value_padded]
  exact ⟨lower, upper⟩

theorem ofText_onZeros (isSigned : Bool) (zeros : Nat) :
    Numeral.ofText isSigned (Cursor.onZeros zeros).remaining =
      Numeral.padded (.ofZeros zeros) 0 := by
  obtain ⟨⟨rest, splits⟩, -⟩ :=
    startsWithin_onZeros isSigned zeros (Int.le_refl 0) (Int.le_refl 0)
  exact splits.ofText_eq

theorem length_digits_onZeros (zeros : Nat) :
    (Numeral.padded (.ofZeros zeros) 0).digits.length = zeros + 1 := by
  have single : (digitsOf (0 : Int).natAbs).length = 1 := rfl
  rw [Numeral.length_digits_padded, single]
  rfl

/-- As many zeros as are counted as none are not found. -/
theorem misses_onZeros (isWord : zeros + 2 < sizeLimit) (wraps : 2 ^ 32 ∣ zeros + 1) :
    (Call.readDecimal type).Misses (Cursor.onZeros zeros) := by
  have valid := (reachable_onZeros isWord).valid.cursor
  have ran := Call.run_readDecimal type valid (ofText_onZeros _ zeros)
  have uncounted : ¬ (Numeral.padded (.ofZeros zeros) 0).IsCounted := fun counted => by
    rw [Numeral.IsCounted, length_digits_onZeros] at counted
    exact counted wraps
  rw [if_neg fun found => uncounted found.1] at ran
  exact Call.misses_of_missed ran

/-- Zero is written with `2 ^ 32` digits, and the read of a word does not find it. -/
theorem words_miss_numerals :
    let cursor := Cursor.onZeros (2 ^ 32 - 1)
    let numeral := Numeral.padded (.ofZeros (2 ^ 32 - 1)) 0
    cursor.Reachable ∧ numeral.StartsWithin false 0 (2 ^ 32 - 1) cursor.remaining ∧
      numeral.value = 0 ∧ (Call.readDecimal .u32).Misses cursor := by
  intro cursor numeral
  exact ⟨⟨_, reachable_onZeros (by decide), rfl⟩,
    startsWithin_onZeros false _ (by decide) (by decide), Numeral.value_padded _ 0,
    misses_onZeros (by decide) (by decide)⟩

end Decimal

end ByteCursor
