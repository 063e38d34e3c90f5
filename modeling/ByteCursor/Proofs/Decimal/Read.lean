import ByteCursor.Proofs.Decimal.Count

/-!
# What the decimal reads do

A decimal read splits the numeral off the unread octets.  It takes all octets of the numeral if
the 32-bit type of the same signedness has its value and the narrow type accepts it; otherwise
it takes none of them.  Digits that are counted as none are missing.

A program that checks its counts does the same, unless it breaks off at a digit.
-/

namespace ByteCursor

namespace Decimal

/-- The layers of a decimal read, the innermost first. -/
def layers (type : IntType) : List String :=
  if type = type.widened then [type.name] else [type.widened.name, type.name]

/-- A value of the 32-bit type is accepted by the narrow type. -/
def Accepts (type : IntType) (options : Options) (value : Int) : Prop :=
  type.Holds value ∨ (type.isSigned = true ∧ options.narrowing = .permissive)

instance (type : IntType) (options : Options) (value : Int) :
    Decidable (Accepts type options value) := inferInstanceAs (Decidable (_ ∨ _))

end Decimal

/-- The 32-bit type of the same signedness has all values of the type. -/
theorem IntType.Holds.widened {type : IntType} {value : Int} (holds : type.Holds value) :
    type.widened.Holds value := by
  have least : type.widened.least ≤ type.least := by cases type <;> decide
  have greatest : type.greatest ≤ type.widened.greatest := by cases type <;> decide
  exact ⟨Int.le_trans least holds.1, Int.le_trans holds.2 greatest⟩

/-- Only signed types have negative values. -/
theorem IntType.Holds.isSigned {type : IntType} {value : Int} (holds : type.Holds value)
    (negative : value < 0) : type.isSigned = true := by
  by_contra unsigned
  have least : type.least = 0 := if_neg unsigned
  have lower := holds.1
  omega

namespace Scan

open Decimal

variable {state : State}

theorem run_readSign_nil (isSigned : Bool) (what : String)
    (unread : state.cursor.remaining = []) :
    (readSign isSigned what).run state = .missed what state [] := by
  have ended : state.cursor.peek = none := by rw [Cursor.peek_eq_head?, unread, List.head?_nil]
  rw [readSign, run_bind_of_ok (run_cursor state), ended]
  rfl

theorem run_readSign_cons (isSigned : Bool) (what : String) {byte : UInt8} {rest : Bytes}
    (valid : state.cursor.Valid) (unread : state.cursor.remaining = byte :: rest) :
    (readSign isSigned what).run state =
      .took (signOf isSigned state.cursor.remaining == [0x2d])
        (signOf isSigned state.cursor.remaining).length state [] := by
  have next : state.cursor.peek = some byte := by
    rw [Cursor.peek_eq_head?, unread, List.head?_cons]
  have fits : 1 ≤ state.cursor.available := by
    rw [← Cursor.length_remaining, unread, List.length_cons]
    omega
  rw [readSign, run_bind_of_ok (run_cursor state), next, unread]
  by_cases plus : byte = 0x2b
  · subst plus
    exact run_bind_of_ok (run_advance_of_valid valid fits) _
  · by_cases minus : byte = 0x2d
    · subst minus
      cases isSigned with
      | false => rfl
      | true => exact run_bind_of_ok (run_advance_of_valid valid fits) _
    · have unsigned : signOf isSigned (byte :: rest) = [] := by
        simp [signOf, plus, minus]
      simp only [plus, minus, unsigned, if_false, decide_false, Bool.false_and,
        Bool.false_eq_true]
      rfl

/-! ## The number behind the blanks -/

section Signed

variable {isSigned : Bool} {arithmetic : Arithmetic} {sign digits : Bytes}

/-- Behind the sign, if there is anything to read. -/
theorem unsigned_of_sign (valid : state.cursor.Valid)
    (signEq : signOf isSigned state.cursor.remaining = sign)
    (digitsEq : (state.cursor.remaining.drop sign.length).takeWhile Bytes.isDigit = digits) :
    (state.pass sign.length).cursor.Valid ∧
      (state.pass sign.length).cursor.remaining.takeWhile Bytes.isDigit = digits := by
  constructor
  · have unread := signOf_append_drop isSigned state.cursor.remaining
    rw [signEq] at unread
    exact valid.pass (Cursor.length_le_available unread.symm)
  · rw [State.cursor_pass, Cursor.remaining_pass, digitsEq]

/-- The sign and the digits behind the blanks. -/
theorem run_readSign_readDigits (what : String) (valid : state.cursor.Valid)
    (signEq : signOf isSigned state.cursor.remaining = sign)
    (digitsEq : (state.cursor.remaining.drop sign.length).takeWhile Bytes.isDigit = digits)
    (reaches : arithmetic.Reaches digits.length) :
    (do
        let isNegative ← readSign isSigned what
        let magnitude ← readDigits what arithmetic
        pure (withSign isNegative magnitude)).run state =
      if 2 ^ 32 ∣ digits.length then .missed what (state.pass (sign.length + digits.length)) []
      else
        .took (withSign (sign == [0x2d]) (magnitude digits)) (sign.length + digits.length)
          state [] := by
  cases unread : state.cursor.remaining with
  | nil =>
      rw [unread] at signEq digitsEq
      cases signEq
      cases digitsEq
      rw [run_bind, run_readSign_nil isSigned what unread]
      rfl
  | cons byte rest =>
      have signed := run_readSign_cons isSigned what valid unread
      rw [signEq] at signed
      obtain ⟨unsignedValid, unsignedEq⟩ := unsigned_of_sign valid signEq digitsEq
      rw [run_bind_of_ok signed, run_bind, run_readDigits what unsignedValid unsignedEq reaches]
      split
      next => rw [Outcome.missed_andThen, State.pass_pass]
      next => rw [Outcome.took_pass, Outcome.took_andThen]; rfl

theorem run_readSign_readDigits_overflow (what : String) (valid : state.cursor.Valid)
    (signEq : signOf isSigned state.cursor.remaining = sign)
    (digitsEq : (state.cursor.remaining.drop sign.length).takeWhile Bytes.isDigit = digits)
    (long : 2 ^ 31 ≤ digits.length) :
    (do
        let isNegative ← readSign isSigned what
        let magnitude ← readDigits what .checked
        pure (withSign isNegative magnitude)).run state =
      .breached .countOverflow (state.pass (sign.length + (2 ^ 31 - 1))) := by
  cases unread : state.cursor.remaining with
  | nil =>
      rw [unread, List.drop_nil] at digitsEq
      cases digitsEq
      exact absurd long (by decide)
  | cons byte rest =>
      have signed := run_readSign_cons isSigned what valid unread
      rw [signEq] at signed
      obtain ⟨unsignedValid, unsignedEq⟩ := unsigned_of_sign valid signEq digitsEq
      have broken := run_readDigits_overflow what unsignedValid (unsignedEq.symm ▸ long)
      rw [run_bind_of_ok signed, run_bind, broken, Outcome.breached_andThen, State.pass_pass]

end Signed

/-! ## The whole number -/

section Whole

variable {isSigned : Bool} {arithmetic : Arithmetic} {numeral : Numeral}

/-- Behind the blanks stand the sign and the digits of the numeral. -/
theorem unblanked_of_ofText (valid : state.cursor.Valid)
    (numeralEq : Numeral.ofText isSigned state.cursor.remaining = numeral) :
    let unblanked := state.pass numeral.blanks.length
    (takeRun Bytes.isBlank).run state =
        .took numeral.blanks numeral.blanks.length state [] ∧
      unblanked.cursor.Valid ∧ signOf isSigned unblanked.cursor.remaining = numeral.sign ∧
      (unblanked.cursor.remaining.drop numeral.sign.length).takeWhile Bytes.isDigit =
        numeral.digits := by
  intro unblanked
  have blanksEq : state.cursor.remaining.takeWhile Bytes.isBlank = numeral.blanks := by
    rw [← numeralEq, Numeral.ofText]
  have unblankedEq : unblanked.cursor.remaining =
      state.cursor.remaining.dropWhile Bytes.isBlank := by
    rw [State.cursor_pass, Cursor.remaining_pass, ← blanksEq, Bytes.drop_length_takeWhile]
  have signEq : signOf isSigned unblanked.cursor.remaining = numeral.sign := by
    rw [unblankedEq, ← numeralEq, Numeral.ofText]
  refine ⟨?taken, ?valid, signEq, ?digits⟩
  case taken =>
    rw [← blanksEq]
    exact run_takeRun valid Bytes.isBlank
  case valid =>
    apply valid.pass
    rw [← blanksEq]
    exact Cursor.length_takeWhile_le Bytes.isBlank
  case digits =>
    rw [← signEq, unblankedEq, ← numeralEq, Numeral.ofText]

theorem length_octets_numeral (numeral : Numeral) :
    numeral.octets.length =
      numeral.blanks.length + (numeral.sign.length + numeral.digits.length) := by
  rw [Numeral.octets, List.length_append, List.length_append, Nat.add_assoc]

/-- The scanner takes the whole numeral, or it misses behind digits that are counted as none. -/
theorem run_readNumber (what : String) (valid : state.cursor.Valid)
    (numeralEq : Numeral.ofText isSigned state.cursor.remaining = numeral)
    (reaches : arithmetic.Reaches numeral.digits.length) :
    (readNumber isSigned what arithmetic).run state =
      if numeral.IsCounted then
        .took (withSign numeral.isNegative (magnitude numeral.digits)) numeral.octets.length
          state []
      else .missed what (state.pass numeral.octets.length) [] := by
  obtain ⟨blanks, unblankedValid, signEq, digitsEq⟩ := unblanked_of_ofText valid numeralEq
  have scanned := run_readSign_readDigits what unblankedValid signEq digitsEq reaches
  rw [readNumber, run_bind_of_ok blanks, length_octets_numeral]
  refine scanned.trans ?_
  by_cases counted : numeral.IsCounted
  · rw [if_pos counted, if_neg counted, Outcome.took_pass]
    rfl
  · rw [if_neg counted, if_pos (not_not.mp counted), State.pass_pass]

/-- Where counts are checked, the scanner breaks off at the digit that it cannot count. -/
theorem run_readNumber_overflow (what : String) (valid : state.cursor.Valid)
    (numeralEq : Numeral.ofText isSigned state.cursor.remaining = numeral)
    (long : 2 ^ 31 ≤ numeral.digits.length) :
    (readNumber isSigned what .checked).run state =
      .breached .countOverflow
        (state.pass (numeral.blanks.length + (numeral.sign.length + (2 ^ 31 - 1)))) := by
  obtain ⟨blanks, unblankedValid, signEq, digitsEq⟩ := unblanked_of_ofText valid numeralEq
  have broken := run_readSign_readDigits_overflow what unblankedValid signEq digitsEq long
  rw [State.pass_pass] at broken
  rw [readNumber, run_bind_of_ok blanks]
  exact broken

end Whole

/-! ## Values of a type -/

variable {arithmetic : Arithmetic} {type : IntType} {numeral : Numeral}

theorem run_checkRange (type : IntType) (what : String) (value : Int) (state : State) :
    (checkRange type what value).run state =
      if type.Holds value then .took value 0 state [] else .missed what state [] := by
  rw [checkRange]
  split
  next => rfl
  next => rfl

/-- A 32-bit read takes the numeral if its value, as it is written, lies in the range. -/
theorem run_readDecimalWord (valid : state.cursor.Valid)
    (numeralEq : Numeral.ofText type.isSigned state.cursor.remaining = numeral)
    (reaches : arithmetic.Reaches numeral.digits.length) :
    (readDecimalWord type arithmetic).run state =
      if numeral.IsCounted ∧ type.Holds numeral.value then
        .took numeral.value numeral.octets.length state []
      else .missed type.name state (rollbacks [type.name] state.cursor.position) := by
  rw [readDecimalWord, run_atomic, run_bind, run_readNumber type.name valid numeralEq reaches]
  by_cases counted : numeral.IsCounted
  · have isDigits : ∀ digit ∈ numeral.digits, IsDigit digit := by
      intro digit member
      rw [← numeralEq] at member
      exact isDigit_iff.mp (Bytes.mem_takeWhile member)
    rw [if_pos counted, Outcome.took_andThen, run_checkRange,
      toInt_withSign _ (toNat_magnitude_le isDigits), toNat_magnitude isDigits]
    by_cases holds : type.Holds numeral.value
    · rw [if_pos ((holds_signed_min type _ _).mpr holds), if_pos ⟨counted, holds⟩,
        signed_min_of_holds holds]
      rfl
    · rw [if_neg (fun clamped => holds ((holds_signed_min type _ _).mp clamped)),
        if_neg (fun found => holds found.2)]
      rfl
  · rw [if_neg counted, if_neg (fun found => counted found.1)]
    rfl

theorem run_narrowDecimal (type : IntType) (value : Int) (state : State) :
    (narrowDecimal type value).run state =
      if Accepts type state.cursor.options value then .took (type.truncate value) 0 state []
      else .missed type.name state [] := by
  rw [narrowDecimal, run_bind_of_ok (run_cursor state)]
  by_cases permissive :
      type.isSigned = true ∧ state.cursor.options.narrowing = .permissive
  · have accepted : Accepts type state.cursor.options value := .inr permissive
    rw [if_pos accepted, if_pos (by simpa using permissive)]
    rfl
  · rw [if_neg (by simpa using permissive), run_checkRange]
    by_cases holds : type.Holds value
    · have accepted : Accepts type state.cursor.options value := .inl holds
      rw [if_pos holds, if_pos accepted, IntType.truncate_of_holds holds]
    · have refused : ¬ Accepts type state.cursor.options value := fun accepted =>
        accepted.elim holds permissive
      rw [if_neg holds, if_neg refused]

/-- A decimal read takes the numeral if both the 32-bit type and the type itself accept its
value.  Only the layers that failed tell of the rollback. -/
theorem run_readDecimal (valid : state.cursor.Valid)
    (numeralEq : Numeral.ofText type.isSigned state.cursor.remaining = numeral)
    (reaches : arithmetic.Reaches numeral.digits.length) :
    (readDecimal type arithmetic).run state =
      if numeral.IsCounted ∧ type.widened.Holds numeral.value then
        if Accepts type state.cursor.options numeral.value then
          .took (type.truncate numeral.value) numeral.octets.length state []
        else .missed type.name state (rollbacks [type.name] state.cursor.position)
      else .missed type.name state (rollbacks (layers type) state.cursor.position) := by
  have sameSign : type.widened.isSigned = type.isSigned := by cases type <;> rfl
  rw [← sameSign] at numeralEq
  have word := run_readDecimalWord valid numeralEq reaches
  rw [readDecimal, layers]
  by_cases isWord : type = type.widened
  · rw [← isWord] at word ⊢
    rw [if_pos rfl, if_pos rfl, word]
    split
    next found =>
        have accepted : Accepts type state.cursor.options numeral.value := .inl found.2
        rw [if_pos accepted, IntType.truncate_of_holds found.2]
    next => rfl
  · rw [if_neg isWord, if_neg isWord, run_atomic, run_bind, word]
    split
    next found =>
        rw [Outcome.took_andThen, run_narrowDecimal, State.cursor_pass, Cursor.options_pass]
        by_cases accepted : Accepts type state.cursor.options numeral.value
        · rw [if_pos accepted, if_pos accepted]
          rfl
        · rw [if_neg accepted, if_neg accepted]
          rfl
    next => rfl

theorem run_readDecimalWord_overflow (valid : state.cursor.Valid)
    (numeralEq : Numeral.ofText type.isSigned state.cursor.remaining = numeral)
    (long : 2 ^ 31 ≤ numeral.digits.length) :
    (readDecimalWord type .checked).run state =
      .breached .countOverflow
        (state.pass (numeral.blanks.length + (numeral.sign.length + (2 ^ 31 - 1)))) := by
  rw [readDecimalWord, run_atomic, run_bind, run_readNumber_overflow _ valid numeralEq long]
  rfl

/-- No layer around the scanner goes back when the program breaks off. -/
theorem run_readDecimal_overflow (valid : state.cursor.Valid)
    (numeralEq : Numeral.ofText type.isSigned state.cursor.remaining = numeral)
    (long : 2 ^ 31 ≤ numeral.digits.length) :
    (readDecimal type .checked).run state =
      .breached .countOverflow
        (state.pass (numeral.blanks.length + (numeral.sign.length + (2 ^ 31 - 1)))) := by
  have sameSign : type.widened.isSigned = type.isSigned := by cases type <;> rfl
  rw [← sameSign] at numeralEq
  have word := run_readDecimalWord_overflow valid numeralEq long
  rw [readDecimal]
  by_cases isWord : type = type.widened
  · rw [if_pos isWord]
    rw [← isWord] at word
    exact word
  · rw [if_neg isWord, run_atomic, run_bind, word]
    rfl

end Scan

end ByteCursor
