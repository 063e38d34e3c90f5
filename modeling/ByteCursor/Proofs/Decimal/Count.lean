import ByteCursor.Proofs.Decimal.Numeral
import ByteCursor.Proofs.Outcome

/-!
# Counting digits

The scanner passes over digits one after the other and counts them in 32 bits.  Where the count
wraps, it is the number of digits up to a multiple of `2 ^ 32`, and so many digits are counted as
none.  Where it is checked, the program breaks off at the digit that it cannot count.
-/

namespace ByteCursor

/-- So many digits are counted without breaking off. -/
def Arithmetic.Reaches (arithmetic : Arithmetic) (digits : Nat) : Prop :=
  arithmetic = .checked → digits < 2 ^ 31

/-- So many digits are counted, and not as none. -/
def Arithmetic.Counts (arithmetic : Arithmetic) (digits : Nat) : Prop :=
  arithmetic.Reaches digits ∧ ¬ 2 ^ 32 ∣ digits

namespace Arithmetic

variable {arithmetic : Arithmetic} {digits : Nat}

theorem reaches_wrapping (digits : Nat) : Reaches .wrapping digits := nofun

/-- A few digits are counted in any program. -/
theorem counts_of_lt (positive : digits ≠ 0) (short : digits < 2 ^ 31) :
    arithmetic.Counts digits :=
  ⟨fun _ => short, fun divides => by
    have atLeast := Nat.le_of_dvd (Nat.pos_of_ne_zero positive) divides
    omega⟩

end Arithmetic

namespace Decimal

/-- The digits of the numeral are not counted as none where the count wraps. -/
def Numeral.IsCounted (numeral : Numeral) : Prop := ¬ 2 ^ 32 ∣ numeral.digits.length

instance (numeral : Numeral) : Decidable numeral.IsCounted := inferInstanceAs (Decidable (¬ _))

theorem Numeral.IsCounted.digits_ne_nil {numeral : Numeral} (counted : numeral.IsCounted) :
    numeral.digits ≠ [] := by
  intro missing
  rw [IsCounted, missing] at counted
  exact counted (Nat.dvd_zero _)

/-- The count after so many digits is zero at the multiples of `2 ^ 32`. -/
theorem ofNat_eq_zero_iff (digits : Nat) : Int32.ofNat digits = 0 ↔ 2 ^ 32 ∣ digits := by
  rw [← Int32.toInt_inj, Int32.toInt_ofNat', Int32.toInt_zero, ← Int.dvd_iff_bmod_eq_zero]
  exact Int.natCast_dvd_natCast

/-- The greatest count is one less than `2 ^ 31`. -/
theorem ofNat_eq_maxValue_iff {digits : Nat} (short : digits < 2 ^ 31) :
    Int32.ofNat digits = Int32.maxValue ↔ digits = 2 ^ 31 - 1 := by
  rw [← Int32.toInt_inj, Int32.toInt_ofNat_of_lt short, Int32.toInt_maxValue]
  omega

end Decimal

namespace Scan

open Decimal

variable {state : State} {arithmetic : Arithmetic} {text : Bytes}

theorem run_countUp {passed : Nat} (reaches : arithmetic.Reaches (passed + 1)) (state : State) :
    (countUp arithmetic (Int32.ofNat passed)).run state =
      .took (Int32.ofNat (passed + 1)) 0 state [] := by
  rw [Int32.ofNat_add]
  cases arithmetic with
  | wrapping => rfl
  | checked =>
      have short : passed + 1 < 2 ^ 31 := reaches rfl
      have below : Int32.ofNat passed ≠ Int32.maxValue := by
        rw [ne_eq, ofNat_eq_maxValue_iff (by omega)]
        omega
      rw [countUp, decide_eq_true below, demand_true, pure_bind]
      rfl

theorem run_countUp_last (state : State) :
    (countUp .checked (Int32.ofNat (2 ^ 31 - 1))).run state = .breached .countOverflow state := rfl

/-- Behind one more unread octet. -/
theorem State.unread_pass {byte : UInt8} {rest : Bytes}
    (unread : state.cursor.remaining = byte :: rest) :
    1 ≤ state.cursor.available ∧ (state.pass 1).cursor.remaining = rest := by
  constructor
  · rw [← Cursor.length_remaining, unread, List.length_cons]
    exact Nat.succ_pos _
  · rw [State.cursor_pass, Cursor.remaining_pass, unread, List.drop_one, List.tail_cons]

/-- The loop takes the longest run of digits and appends them to the magnitude. -/
theorem run_appendDigits {digits : Bytes} {passed : Nat} (valid : state.cursor.Valid)
    (unread : state.cursor.remaining = text) (digitsEq : text.takeWhile Bytes.isDigit = digits)
    (reaches : arithmetic.Reaches (passed + digits.length)) (magnitude : UInt64) :
    (appendDigits arithmetic text magnitude (Int32.ofNat passed)).run state =
      .took (digits.foldl appendDigit magnitude, Int32.ofNat (passed + digits.length))
        digits.length state [] := by
  induction text generalizing state digits passed magnitude with
  | nil =>
      cases digitsEq
      rfl
  | cons byte rest ih =>
      cases isDigit : Bytes.isDigit byte with
      | false =>
          rw [List.takeWhile_cons_of_neg (Bool.eq_false_iff.mp isDigit)] at digitsEq
          cases digitsEq
          rw [appendDigits, if_neg (Bool.eq_false_iff.mp isDigit)]
          rfl
      | true =>
          rw [List.takeWhile_cons_of_pos isDigit] at digitsEq
          cases digitsEq
          rw [List.length_cons, Nat.add_comm _ 1, ← Nat.add_assoc] at reaches ⊢
          obtain ⟨fits, behind⟩ := State.unread_pass unread
          have counted : arithmetic.Reaches (passed + 1) := fun checked =>
            Nat.lt_of_le_of_lt (Nat.le_add_right _ _) (reaches checked)
          have later := ih (valid.pass fits) behind rfl reaches (appendDigit magnitude byte)
          rw [Outcome.took_pass] at later
          rw [appendDigits, if_pos isDigit, run_bind_of_ok (run_countUp counted state),
            State.pass_zero, run_bind_of_ok (run_advance_of_valid valid fits)]
          exact later

/-- The magnitude of the digits is read unless they are missing or counted as none. -/
theorem run_readDigits {digits : Bytes} (what : String) (valid : state.cursor.Valid)
    (digitsEq : state.cursor.remaining.takeWhile Bytes.isDigit = digits)
    (reaches : arithmetic.Reaches digits.length) :
    (readDigits what arithmetic).run state =
      if 2 ^ 32 ∣ digits.length then .missed what (state.pass digits.length) []
      else .took (magnitude digits) digits.length state [] := by
  have fromZero : arithmetic.Reaches (0 + digits.length) := (Nat.zero_add _).symm ▸ reaches
  have taken : (appendDigits arithmetic state.cursor.remaining 0 0).run state = _ :=
    run_appendDigits valid rfl digitsEq fromZero 0
  rw [Nat.zero_add] at taken
  rw [readDigits, run_bind_of_ok (run_remaining_of_valid valid), State.pass_zero,
    run_bind_of_ok taken]
  change (if Int32.ofNat digits.length = 0 then mismatch what
    else pure (magnitude digits) : Scan UInt64).run (state.pass digits.length) = _
  by_cases wraps : 2 ^ 32 ∣ digits.length
  · rw [if_pos wraps, if_pos ((ofNat_eq_zero_iff _).mpr wraps)]
    rfl
  · rw [if_neg wraps, if_neg (wraps ∘ (ofNat_eq_zero_iff _).mp)]
    rfl

/-- With one digit too many for a checked count, the loop breaks off before that digit. -/
theorem run_appendDigits_overflow {passed : Nat} (valid : state.cursor.Valid)
    (unread : state.cursor.remaining = text) (short : passed < 2 ^ 31)
    (long : 2 ^ 31 ≤ passed + (text.takeWhile Bytes.isDigit).length) (magnitude : UInt64) :
    (appendDigits .checked text magnitude (Int32.ofNat passed)).run state =
      .breached .countOverflow (state.pass (2 ^ 31 - 1 - passed)) := by
  induction text generalizing state passed magnitude with
  | nil => exact absurd long (Nat.not_le.mpr short)
  | cons byte rest ih =>
      cases isDigit : Bytes.isDigit byte with
      | false =>
          rw [List.takeWhile_cons_of_neg (Bool.eq_false_iff.mp isDigit)] at long
          exact absurd long (Nat.not_le.mpr short)
      | true =>
          rw [List.takeWhile_cons_of_pos isDigit, List.length_cons] at long
          rw [appendDigits, if_pos isDigit, run_bind]
          by_cases last : passed = 2 ^ 31 - 1
          · subst last
            rw [run_countUp_last, Outcome.breached_andThen, Nat.sub_self, State.pass_zero]
          · obtain ⟨fits, behind⟩ := State.unread_pass unread
            have counted : Arithmetic.checked.Reaches (passed + 1) := fun _ => by omega
            have shortBehind : passed + 1 < 2 ^ 31 := by omega
            have longBehind : 2 ^ 31 ≤ passed + 1 + (rest.takeWhile Bytes.isDigit).length := by
              omega
            have later := ih (valid.pass fits) behind shortBehind longBehind
              (appendDigit magnitude byte)
            have countEq : 1 + (2 ^ 31 - 1 - (passed + 1)) = 2 ^ 31 - 1 - passed := by omega
            rw [State.pass_pass, countEq] at later
            rw [← run_bind, run_bind_of_ok (run_countUp counted state), State.pass_zero,
              run_bind_of_ok (run_advance_of_valid valid fits)]
            exact later

theorem run_readDigits_overflow (what : String) (valid : state.cursor.Valid)
    (long : 2 ^ 31 ≤ (state.cursor.remaining.takeWhile Bytes.isDigit).length) :
    (readDigits what .checked).run state = .breached .countOverflow (state.pass (2 ^ 31 - 1)) := by
  have overflows : 2 ^ 31 ≤ 0 + (state.cursor.remaining.takeWhile Bytes.isDigit).length := by omega
  have broken : (appendDigits .checked state.cursor.remaining 0 0).run state = _ :=
    run_appendDigits_overflow valid rfl (by decide) overflows 0
  rw [readDigits, run_bind_of_ok (run_remaining_of_valid valid), State.pass_zero, run_bind, broken]
  rfl

end Scan

end ByteCursor
