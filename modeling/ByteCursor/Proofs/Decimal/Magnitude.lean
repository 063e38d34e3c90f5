import ByteCursor.Integer.Decimal
import Mathlib.Data.List.Induction
import Mathlib.Data.Nat.Digits.Defs

/-!
# Magnitudes of digits

A run of digits writes a number without a bound.  The magnitude that the scanner computes is
that number held below the ceiling, which lies outside of every range that is checked later.
So the check decides about the number as it is written.
-/

namespace ByteCursor.Decimal

/-- The octet is one of the digits `0` to `9`. -/
def IsDigit (byte : UInt8) : Prop := 0x30 ≤ byte ∧ byte ≤ 0x39

/-- The number below ten that a digit stands for. -/
def digitNumber (digit : UInt8) : Nat := digit.toNat - 0x30

/-- The number that digits write, the most significant first. -/
def number (digits : Bytes) : Nat := Nat.ofDigits 10 (digits.reverse.map digitNumber)

theorem number_concat (digits : Bytes) (digit : UInt8) :
    number (digits ++ [digit]) = 10 * number digits + digitNumber digit := by
  rw [number, List.reverse_append, List.reverse_singleton, List.singleton_append, List.map_cons,
    Nat.ofDigits_cons, Nat.add_comm]
  rfl

variable {digit : UInt8} {digits : Bytes}

theorem IsDigit.toNat_mem (isDigit : IsDigit digit) :
    48 ≤ digit.toNat ∧ digit.toNat ≤ 57 :=
  ⟨UInt8.le_iff_toNat_le.mp isDigit.1, UInt8.le_iff_toNat_le.mp isDigit.2⟩

theorem IsDigit.toNat_digitValue (isDigit : IsDigit digit) :
    (digitValue digit).toNat = digitNumber digit := by
  rw [digitValue, UInt8.toNat_toUInt64, UInt8.toNat_sub_of_le _ _ isDigit.1]
  rfl

theorem IsDigit.digitNumber_le (isDigit : IsDigit digit) : digitNumber digit ≤ 9 := by
  have bounds := isDigit.toNat_mem
  rw [digitNumber]
  omega

theorem toNat_ceiling : ceiling.toNat = 2 ^ 33 := rfl

/-- A step from below the ceiling stays far below the end of a machine word. -/
theorem toNat_step {magnitude : UInt64} (isDigit : IsDigit digit)
    (bounded : magnitude.toNat ≤ 2 ^ 33) :
    (magnitude * 10 + digitValue digit).toNat = 10 * magnitude.toNat + digitNumber digit := by
  have small := isDigit.digitNumber_le
  have scaled : (10 : UInt64).toNat = 10 := rfl
  rw [UInt64.toNat_add, UInt64.toNat_mul, isDigit.toNat_digitValue, scaled]
  omega

theorem toNat_min (left right : UInt64) :
    (min left right).toNat = min left.toNat right.toNat := by
  rw [UInt64.min_def, Nat.min_def]
  simp only [UInt64.le_iff_toNat_le]
  split <;> rfl

theorem toNat_appendDigit {magnitude : UInt64} (isDigit : IsDigit digit)
    (bounded : magnitude.toNat ≤ 2 ^ 33) :
    (appendDigit magnitude digit).toNat =
      min (10 * magnitude.toNat + digitNumber digit) (2 ^ 33) := by
  rw [appendDigit, toNat_min, toNat_step isDigit bounded, toNat_ceiling]

/-- The scanner computes the number that the digits write, up to the ceiling. -/
theorem toNat_magnitude (isDigits : ∀ digit ∈ digits, IsDigit digit) :
    (magnitude digits).toNat = min (number digits) (2 ^ 33) := by
  -- The loop appends on the right.  A magnitude at the ceiling stays there, because a further
  -- digit makes both sides larger.
  induction digits using List.reverseRecOn with
  | nil => rfl
  | append_singleton digits digit ih =>
      have earlier := ih fun digit member => isDigits digit (List.mem_append_left _ member)
      have last : IsDigit digit := isDigits digit (by simp)
      have bounded : (magnitude digits).toNat ≤ 2 ^ 33 := by
        rw [earlier]
        exact Nat.min_le_right _ _
      have step : magnitude (digits ++ [digit]) = appendDigit (magnitude digits) digit := by
        rw [magnitude, List.foldl_append]
        rfl
      rw [number_concat, step, toNat_appendDigit last bounded, earlier]
      omega

theorem toNat_magnitude_le (isDigits : ∀ digit ∈ digits, IsDigit digit) :
    (magnitude digits).toNat ≤ 2 ^ 33 := by
  rw [toNat_magnitude isDigits]
  exact Nat.min_le_right _ _

/-- A number with its sign. -/
def signed (isNegative : Bool) (number : Nat) : Int := if isNegative then -number else number

/-- A magnitude is read with a sign without a loss. -/
theorem toInt_withSign (isNegative : Bool) {magnitude : UInt64}
    (bounded : magnitude.toNat ≤ 2 ^ 33) :
    (withSign isNegative magnitude).toInt = signed isNegative magnitude.toNat := by
  have positive : magnitude.toInt64.toInt = magnitude.toNat := by
    apply BitVec.toInt_eq_toNat_of_lt
    change 2 * magnitude.toNat < 2 ^ 64
    omega
  cases isNegative with
  | false => exact positive
  | true =>
      change (-magnitude.toInt64).toInt = -(magnitude.toNat : Int)
      rw [Int64.toInt_neg, positive]
      apply Int.bmod_eq_of_le
      · omega
      · omega

/-- Every range lies strictly between the ceiling and its negative. -/
theorem lt_ceiling_of_holds {type : IntType} {isNegative : Bool} {number : Nat}
    (holds : type.Holds (signed isNegative number)) : number < 2 ^ 33 := by
  have least : -(2 ^ 33 : Int) < type.least := by cases type <;> decide
  have greatest : type.greatest < (2 ^ 33 : Int) := by cases type <;> decide
  rcases holds with ⟨lower, upper⟩
  cases isNegative with
  | false =>
      simp only [signed, Bool.false_eq_true, if_false] at upper
      omega
  | true =>
      simp only [signed, if_true] at lower
      omega

/-- Holding a number below the ceiling moves it neither into a range nor out of one. -/
theorem holds_signed_min (type : IntType) (isNegative : Bool) (number : Nat) :
    type.Holds (signed isNegative (min number (2 ^ 33))) ↔
      type.Holds (signed isNegative number) := by
  constructor
  · intro holds
    have below := lt_ceiling_of_holds holds
    rwa [Nat.min_eq_left (by omega)] at holds
  · intro holds
    rwa [Nat.min_eq_left (Nat.le_of_lt (lt_ceiling_of_holds holds))]

/-- A number of a range is not changed. -/
theorem signed_min_of_holds {type : IntType} {isNegative : Bool} {number : Nat}
    (holds : type.Holds (signed isNegative number)) :
    signed isNegative (min number (2 ^ 33)) = signed isNegative number := by
  rw [Nat.min_eq_left (Nat.le_of_lt (lt_ceiling_of_holds holds))]

end ByteCursor.Decimal
