import ByteCursor.Proofs.Call.Contract

/-!
# The clamped magnitude decides the ranges

The scanner appends digits to a magnitude and holds it below a ceiling.  A magnitude at the
ceiling stays there, and with either sign the ceiling lies outside of both 32-bit ranges.  So the
ranges can be checked on what the scanner computed, for any number of digits.

Only the count of the digits has an end.  Where it wraps the scanner still takes every digit, and
where it is checked the scanner breaks off before the digit that cannot be counted.
-/

namespace ByteCursor

open Decimal

namespace Decimal

/-- No 32-bit range tells the two integers apart, and they are the same if one of the ranges has
the second. -/
structure SameWord (found written : Int) : Prop where
  unsigned : 0 ≤ found ∧ found ≤ 2 ^ 32 - 1 ↔ 0 ≤ written ∧ written ≤ 2 ^ 32 - 1
  signed : -2 ^ 31 ≤ found ∧ found ≤ 2 ^ 31 - 1 ↔ -2 ^ 31 ≤ written ∧ written ≤ 2 ^ 31 - 1
  eq : (0 ≤ written ∧ written ≤ 2 ^ 32 - 1) ∨ (-2 ^ 31 ≤ written ∧ written ≤ 2 ^ 31 - 1) →
    found = written

/-- What the scanner computes from the digits, against the number that they write. -/
structure Clamps (digits : Bytes) : Prop where
  magnitude_eq : (magnitude digits).toNat = min (number digits) (2 ^ 33)
  /-- No step on the way leaves the machine word. -/
  step_lt : ∀ front digit back, digits = front ++ digit :: back →
    (magnitude front).toNat * 10 + (digitValue digit).toNat < 2 ^ 64
  /-- The magnitude and its negative are words with a sign. -/
  toInt_eq : (magnitude digits).toInt64.toInt = (magnitude digits).toNat
  toInt_neg : (-(magnitude digits).toInt64).toInt = -((magnitude digits).toNat : Int)
  sameWord : ∀ isNegative,
    SameWord (withSign isNegative (magnitude digits)).toInt (signed isNegative (number digits))

end Decimal

/-- How the scanner goes through the digits that are unread. -/
structure Cursor.ScansDigits (cursor : Cursor) : Prop where
  /-- The loop takes all digits and nothing behind them, as long as it can count them.  Where the
  count wraps it always can. -/
  takes : ∀ (arithmetic : Arithmetic) (digits rest output : Bytes),
    cursor.remaining = digits ++ rest → (∀ digit ∈ digits, IsDigit digit) →
    (∀ byte, rest.head? = some byte → ¬ IsDigit byte) → arithmetic.Reaches digits.length →
    (Scan.appendDigits arithmetic cursor.remaining 0 0).run { cursor := cursor, output := output } =
      .took (magnitude digits, Int32.ofNat digits.length) digits.length
        { cursor := cursor, output := output } []
  /-- Otherwise it breaks off before the digit that cannot be counted. -/
  breaksOff : ∀ digits rest output : Bytes, cursor.remaining = digits ++ rest →
    (∀ digit ∈ digits, IsDigit digit) → 2 ^ 31 ≤ digits.length →
    (Scan.appendDigits .checked cursor.remaining 0 0).run { cursor := cursor, output := output } =
      .breached .countOverflow
        { cursor := cursor.seek (cursor.position + (2 ^ 31 - 1)), output := output }
  /-- The whole scan takes the numeral and gives an integer that can stand for its value. -/
  scan : ∀ arithmetic isSigned what (numeral : Numeral) rest output,
    numeral.SplitsOff isSigned cursor.remaining rest → arithmetic.Counts numeral.digits.length →
    ∃ found : Int64,
      (Scan.readNumber isSigned what arithmetic).run { cursor := cursor, output := output } =
          .took found numeral.octets.length { cursor := cursor, output := output } [] ∧
        SameWord found.toInt numeral.value
  /-- There is no such integer if the count has come round to zero. -/
  comesRound : ∀ isSigned what (numeral : Numeral) rest output,
    numeral.SplitsOff isSigned cursor.remaining rest → 2 ^ 32 ∣ numeral.digits.length →
    (Scan.readNumber isSigned what).run { cursor := cursor, output := output } =
      .missed what
        { cursor := cursor.seek (cursor.position + numeral.octets.length), output := output } []

namespace Decimal

variable {digits : Bytes}

/-- Both ranges lie strictly between the ceiling and its negative. -/
theorem sameWord_min (isNegative : Bool) (number : Nat) :
    SameWord (signed isNegative (min number (2 ^ 33))) (signed isNegative number) where
  unsigned := holds_signed_min .u32 isNegative number
  signed := holds_signed_min .i32 isNegative number
  eq := by
    rintro (unsigned | signed)
    · have holds : IntType.u32.Holds (Decimal.signed isNegative number) := unsigned
      exact signed_min_of_holds holds
    · have holds : IntType.i32.Holds (Decimal.signed isNegative number) := signed
      exact signed_min_of_holds holds

theorem clamps (isDigits : ∀ digit ∈ digits, IsDigit digit) : Clamps digits := by
  have magnitudeEq := toNat_magnitude isDigits
  have bounded := toNat_magnitude_le isDigits
  refine ⟨magnitudeEq, ?step, ?toInt, ?neg, ?sameWord⟩
  case step =>
    rintro front digit back rfl
    have frontBounded : (magnitude front).toNat ≤ 2 ^ 33 :=
      toNat_magnitude_le fun digit member => isDigits digit (List.mem_append_left _ member)
    have isDigit : IsDigit digit := isDigits digit (by simp)
    have small := isDigit.digitNumber_le
    rw [isDigit.toNat_digitValue]
    omega
  case toInt => exact toInt_withSign false bounded
  case neg => exact toInt_withSign true bounded
  case sameWord =>
    intro isNegative
    rw [toInt_withSign isNegative bounded, magnitudeEq]
    exact sameWord_min isNegative _

end Decimal

theorem Cursor.scansDigits {cursor : Cursor} (valid : cursor.Valid) : cursor.ScansDigits := by
  have validStart (output : Bytes) :
      (Scan.State.mk cursor output).cursor.Valid := valid
  refine ⟨?takes, ?breaksOff, ?scan, ?comesRound⟩
  case takes =>
    intro arithmetic digits rest output unread isDigits stops reaches
    have run : cursor.remaining.takeWhile Bytes.isDigit = digits := by
      rw [unread]
      apply Bytes.takeWhile_append_of_boundary
      · intro digit member
        exact isDigit_iff.mpr (isDigits digit member)
      · intro byte next
        exact Bool.eq_false_iff.mpr fun digit => stops byte next (isDigit_iff.mp digit)
    have fromZero : arithmetic.Reaches (0 + digits.length) := (Nat.zero_add _).symm ▸ reaches
    have taken := Scan.run_appendDigits (validStart output) rfl run fromZero 0
    rw [Nat.zero_add] at taken
    exact taken
  case breaksOff =>
    intro digits rest output unread isDigits long
    have run : digits.length ≤ (cursor.remaining.takeWhile Bytes.isDigit).length := by
      rw [unread, List.takeWhile_append_of_pos
        fun digit member => isDigit_iff.mpr (isDigits digit member), List.length_append]
      exact Nat.le_add_right _ _
    have overflows : 2 ^ 31 ≤ 0 + (cursor.remaining.takeWhile Bytes.isDigit).length := by omega
    exact Scan.run_appendDigits_overflow (validStart output) rfl (by decide) overflows 0
  case scan =>
    intro arithmetic isSigned what numeral rest output splits counts
    have scanned := Scan.run_readNumber what (validStart output) splits.ofText_eq counts.1
    have counted : numeral.IsCounted := counts.2
    rw [if_pos counted] at scanned
    exact ⟨_, scanned, (clamps splits.digits_mem).sameWord numeral.isNegative⟩
  case comesRound =>
    intro isSigned what numeral rest output splits comesRound
    have scanned := Scan.run_readNumber what (validStart output) splits.ofText_eq
      (Arithmetic.reaches_wrapping _)
    have uncounted : ¬ numeral.IsCounted := not_not_intro comesRound
    rw [if_neg uncounted] at scanned
    exact scanned

/-- However many digits there are, the scanner computes their number up to the ceiling without an
overflow, and both ranges are decided as the number itself would.  It takes all digits if the count
wraps, and breaks off at the end of the count if that is checked. -/
theorem Cursor.clamped_digits_decide_ranges {cursor : Cursor} (reachable : cursor.Reachable) :
    (∀ digits : Bytes, (∀ digit ∈ digits, IsDigit digit) → Clamps digits) ∧
      cursor.ScansDigits := by
  constructor
  · intro digits isDigits
    exact clamps isDigits
  · exact scansDigits reachable.valid

/-- The number of 23 nines is held at the ceiling, from where the zero behind them does not bring
it back, so that no sign makes a word of it. -/
theorem Cursor.clamped_digits_decide_ranges_absorbed :
    let digits : Bytes := List.replicate 23 0x39 ++ [0x30]
    let cursor : Cursor := { bytes := digits ++ [0x2c], position := 0, options := {} }
    let start : Scan.State := { cursor := cursor, output := [] }
    let found := (withSign true (magnitude digits)).toInt
    cursor.Reachable ∧ (∀ digit ∈ digits, IsDigit digit) ∧
      (magnitude digits).toNat = 2 ^ 33 ∧ ¬ (-2 ^ 31 ≤ found ∧ found ≤ 2 ^ 31 - 1) ∧
      (Scan.appendDigits .checked cursor.remaining 0 0).run start =
        .took (magnitude digits, 24) 24 start [] := by
  intro digits cursor start found
  have reachable : cursor.Reachable := .ofText (by decide) (by decide) {}
  have isDigits : ∀ digit ∈ digits, IsDigit digit := by
    intro digit member
    rcases List.mem_append.mp member with nine | zero
    · rw [List.eq_of_mem_replicate nine]
      exact ⟨by decide, by decide⟩
    · rw [List.mem_singleton.mp zero]
      exact ⟨by decide, by decide⟩
  have numberEq : number digits = 10 ^ 24 - 10 := by decide
  obtain ⟨clamps, scans⟩ := clamped_digits_decide_ranges reachable
  have clamped := clamps digits isDigits
  have magnitudeEq := clamped.magnitude_eq
  have sameWord := clamped.sameWord true
  rw [numberEq] at magnitudeEq sameWord
  have outside : ¬ (-2 ^ 31 ≤ signed true (10 ^ 24 - 10) ∧
      signed true (10 ^ 24 - 10) ≤ 2 ^ 31 - 1) := by decide
  have stops : ∀ byte, ([0x2c] : Bytes).head? = some byte → ¬ IsDigit byte := by
    rintro byte ⟨rfl⟩
    exact fun digit => absurd digit.1 (by decide)
  have few : Arithmetic.checked.Reaches digits.length := fun _ => by decide
  exact ⟨reachable, isDigits, magnitudeEq, fun within => outside (sameWord.signed.mp within),
    scans.takes .checked digits [0x2c] [] rfl isDigits stops few⟩

theorem Decimal.number_zeros (zeros : Nat) :
    number (Numeral.padded (.ofZeros zeros) 0).digits = 0 := by
  have digitsEq : (Numeral.padded (.ofZeros zeros) 0).digits =
      List.replicate zeros 0x30 ++ digitsOf 0 := rfl
  rw [digitsEq, number_zeros_append, number_digitsOf]

theorem Cursor.remaining_onZeros_eq_digits (zeros : Nat) :
    (onZeros zeros).remaining = (Numeral.padded (.ofZeros zeros) 0).digits := rfl

theorem Cursor.scans_onZeros {zeros count : Nat} (isWord : zeros + 2 < sizeLimit)
    (length : zeros + 1 = count) (wraps : 2 ^ 32 ∣ count) :
    let cursor := onZeros zeros
    let start : Scan.State := { cursor := cursor, output := [] }
    (Scan.readNumber false "u32").run start =
        .missed "u32" { start with cursor := cursor.seek count } [] ∧
      (Scan.appendDigits .checked cursor.remaining 0 0).run start =
        .breached .countOverflow { start with cursor := cursor.seek (2 ^ 31 - 1) } := by
  intro cursor start
  subst length
  have scans := scansDigits (reachable_onZeros isWord).valid.cursor
  obtain ⟨⟨rest, splits⟩, -⟩ := startsWithin_onZeros false zeros (Int.le_refl 0) (Int.le_refl 0)
  have atLeast := Nat.le_of_dvd (Nat.succ_pos zeros) wraps
  have long : 2 ^ 31 ≤ (Numeral.padded (.ofZeros zeros) 0).digits.length := by
    rw [length_digits_onZeros]
    omega
  constructor
  · rw [← length_digits_onZeros] at wraps
    have missed := scans.comesRound false "u32" _ rest [] splits wraps
    rw [Numeral.length_octets_padded_zeros] at missed
    have fromStart : (onZeros zeros).position + (zeros + 1) = zeros + 1 := Nat.zero_add _
    rw [fromStart] at missed
    exact missed
  · have unread : cursor.remaining = _ := (List.append_nil _).symm
    have broken := scans.breaksOff _ [] [] unread splits.digits_mem long
    have fromStart : (onZeros zeros).position + (2 ^ 31 - 1) = 2 ^ 31 - 1 := Nat.zero_add _
    rw [fromStart] at broken
    exact broken

/-- The number of `2 ^ 32` zeros is a word, and the scanner has no result for it: where the count
wraps there are no digits, and where it is checked the loop does not take them all. -/
theorem Cursor.uncounted_digits_are_lost :
    let cursor := onZeros (2 ^ 32 - 1)
    let digits := (Numeral.padded (.ofZeros (2 ^ 32 - 1)) 0).digits
    let start : Scan.State := { cursor := cursor, output := [] }
    cursor.Reachable ∧ cursor.remaining = digits ∧ number digits = 0 ∧
      (Scan.readNumber false "u32").run start =
        .missed "u32" { start with cursor := cursor.seek (2 ^ 32) } [] ∧
      (Scan.appendDigits .checked cursor.remaining 0 0).run start =
        .breached .countOverflow { start with cursor := cursor.seek (2 ^ 31 - 1) } := by
  intro cursor digits start
  exact ⟨⟨_, reachable_onZeros (by decide), rfl⟩, remaining_onZeros_eq_digits _, number_zeros _,
    scans_onZeros (by decide) (by decide) (by decide)⟩

end ByteCursor
