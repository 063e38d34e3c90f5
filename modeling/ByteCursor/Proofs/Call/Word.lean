import ByteCursor.Call
import ByteCursor.Proofs.Decimal.Read
import ByteCursor.Proofs.Hexadecimal.Read

/-!
# The words inside of integer reads

Every read of an integer goes through a read of 32 bits, its word.  The word finds the numeral
and decides how far a success goes; the read itself only accepts or refuses the value.
-/

namespace ByteCursor

namespace Call

/-- The state that the scan of a call starts in. -/
def start (call : Call) (cursor : Cursor) : Scan.State where
  cursor := cursor
  output := call.output

@[simp] theorem cursor_start (call : Call) (cursor : Cursor) :
    (call.start cursor).cursor = cursor := rfl

/-- The 32-bit read that the read of an integer goes through, which may be the read itself. -/
def word? : Call → Option Call
  | readDecimal type => some (readDecimal type.widened)
  | readHex _ _ => some (readHex .u32 .big)
  | _ => none

variable {cursor : Cursor}

/-- What a decimal read does is decided by the numeral at the start of the unread octets. -/
theorem run_readDecimal_of_reaches (type : IntType) {numeral : Decimal.Numeral}
    {arithmetic : Arithmetic} (valid : cursor.Valid)
    (numeralEq : Decimal.Numeral.ofText type.isSigned cursor.remaining = numeral)
    (reaches : arithmetic.Reaches numeral.digits.length) :
    (readDecimal type).run cursor arithmetic =
      if numeral.IsCounted ∧ type.widened.Holds numeral.value then
        if Decimal.Accepts type cursor.options numeral.value then
          .took (.integer (type.truncate numeral.value)) numeral.octets.length
            ((readDecimal type).start cursor) []
        else
          .missed type.name ((readDecimal type).start cursor)
            (Scan.rollbacks [type.name] cursor.position)
      else
        .missed type.name ((readDecimal type).start cursor)
          (Scan.rollbacks (Decimal.layers type) cursor.position) := by
  have validStart : ((readDecimal type).start cursor).cursor.Valid := valid
  have scanned := Scan.run_readDecimal validStart numeralEq reaches
  rw [cursor_start] at scanned
  split
  next found =>
      rw [if_pos found] at scanned
      split
      next accepted =>
          rw [if_pos accepted] at scanned
          exact Scan.run_map_of_took scanned
      next refused =>
          rw [if_neg refused] at scanned
          exact Scan.run_map_of_missed scanned
  next missing =>
      rw [if_neg missing] at scanned
      exact Scan.run_map_of_missed scanned

theorem run_readDecimal (type : IntType) {numeral : Decimal.Numeral} (valid : cursor.Valid)
    (numeralEq : Decimal.Numeral.ofText type.isSigned cursor.remaining = numeral) :
    (readDecimal type).run cursor =
      if numeral.IsCounted ∧ type.widened.Holds numeral.value then
        if Decimal.Accepts type cursor.options numeral.value then
          .took (.integer (type.truncate numeral.value)) numeral.octets.length
            ((readDecimal type).start cursor) []
        else
          .missed type.name ((readDecimal type).start cursor)
            (Scan.rollbacks [type.name] cursor.position)
      else
        .missed type.name ((readDecimal type).start cursor)
          (Scan.rollbacks (Decimal.layers type) cursor.position) :=
  run_readDecimal_of_reaches type valid numeralEq (Arithmetic.reaches_wrapping _)

/-- Where counts are checked, a decimal read breaks off at the digit that it cannot count. -/
theorem run_readDecimal_overflow (type : IntType) {numeral : Decimal.Numeral}
    (valid : cursor.Valid)
    (numeralEq : Decimal.Numeral.ofText type.isSigned cursor.remaining = numeral)
    (long : 2 ^ 31 ≤ numeral.digits.length) :
    (readDecimal type).run cursor .checked =
      .breached .countOverflow
        (((readDecimal type).start cursor).pass
          (numeral.blanks.length + (numeral.sign.length + (2 ^ 31 - 1)))) := by
  have validStart : ((readDecimal type).start cursor).cursor.Valid := valid
  exact Scan.run_map_of_breached (Scan.run_readDecimal_overflow validStart numeralEq long)

/-- What a hexadecimal read does is decided by the numeral at the start of the unread octets. -/
theorem run_readHex (type : IntType) (order : ByteOrder) {numeral : Hexadecimal.Numeral}
    (valid : cursor.Valid)
    (numeralEq : Hexadecimal.Numeral.ofText cursor.options cursor.remaining = numeral) :
    (readHex type order).run cursor =
      if numeral.digits = [] then
        .missed (Hexadecimal.readName type order) ((readHex type order).start cursor)
          (Hexadecimal.leadEvents cursor ++
            Scan.rollbacks ("u32 be" :: Hexadecimal.outerLayers type order) cursor.position)
      else if Hexadecimal.Accepts type cursor.options (Hexadecimal.number numeral.digits) then
        .took
          (.integer (Scan.inOrder order type
            (type.truncate (Hexadecimal.number numeral.digits))))
          numeral.octets.length ((readHex type order).start cursor)
          (Hexadecimal.leadEvents cursor)
      else
        .missed (Hexadecimal.readName type order) ((readHex type order).start cursor)
          (Hexadecimal.leadEvents cursor ++
            Scan.rollbacks (Hexadecimal.outerLayers type order) cursor.position) := by
  have validStart : ((readHex type order).start cursor).cursor.Valid := valid
  have scanned : (Scan.readHex type order).run _ = _ := Scan.run_readHex order validStart numeralEq
  rw [cursor_start] at scanned
  split
  next missing =>
      rw [if_pos missing] at scanned
      exact Scan.run_map_of_missed scanned
  next found =>
      rw [if_neg found] at scanned
      split
      next accepted =>
          rw [if_pos accepted] at scanned
          exact Scan.run_map_of_took scanned
      next refused =>
          rw [if_neg refused] at scanned
          exact Scan.run_map_of_missed scanned

end Call

/-! ## Words -/

variable {cursor : Cursor}

namespace Decimal

variable {type : IntType} {arithmetic : Arithmetic} {numeral : Numeral}

/-- A 32-bit type accepts every value that it holds, and leaves it as it is. -/
theorem run_readDecimal_word (isWord : type = type.widened) (valid : cursor.Valid)
    (numeralEq : Numeral.ofText type.isSigned cursor.remaining = numeral)
    (reaches : arithmetic.Reaches numeral.digits.length) :
    (Call.readDecimal type).run cursor arithmetic =
      if numeral.IsCounted ∧ type.Holds numeral.value then
        .took (.integer numeral.value) numeral.octets.length
          ((Call.readDecimal type).start cursor) []
      else
        .missed type.name ((Call.readDecimal type).start cursor)
          (Scan.rollbacks [type.name] cursor.position) := by
  have ran := Call.run_readDecimal_of_reaches type valid numeralEq reaches
  rw [layers, if_pos isWord, ← isWord] at ran
  rw [ran]
  split
  next found =>
      have accepted : Accepts type cursor.options numeral.value := .inl found.2
      rw [if_pos accepted, IntType.truncate_of_holds found.2]
  next => rfl

end Decimal

namespace Hexadecimal

/-- The word accepts every number of its digits. -/
theorem run_readHex_word {numeral : Numeral} (valid : cursor.Valid)
    (numeralEq : Numeral.ofText cursor.options cursor.remaining = numeral) :
    (Call.readHex .u32 .big).run cursor =
      if numeral.digits = [] then
        .missed "u32 be" ((Call.readHex .u32 .big).start cursor)
          (leadEvents cursor ++ Scan.rollbacks ["u32 be"] cursor.position)
      else
        .took (.integer (number numeral.digits)) numeral.octets.length
          ((Call.readHex .u32 .big).start cursor) (leadEvents cursor) := by
  have ran := Call.run_readHex .u32 .big valid numeralEq
  have numberEq : (word numeral.digits).toNat = number numeral.digits := by
    rw [← numeralEq]
    exact toNat_word_digitsOf _
  rcases Scan.accepts_u32 cursor.options (word numeral.digits) with ⟨accepted, unchanged⟩
  rw [numberEq] at accepted unchanged
  rw [if_pos accepted, unchanged] at ran
  exact ran

end Hexadecimal

namespace Call

theorem widened_widened (type : IntType) : type.widened = type.widened.widened := by
  cases type <;> rfl

theorem isSigned_widened (type : IntType) : type.widened.isSigned = type.isSigned := by
  cases type <;> rfl

/-- The decimal word takes the numeral if its digits are counted and its value is one of 32
bits. -/
theorem run_word_readDecimal (type : IntType) {numeral : Decimal.Numeral} (valid : cursor.Valid)
    (numeralEq : Decimal.Numeral.ofText type.isSigned cursor.remaining = numeral) :
    (readDecimal type.widened).run cursor =
      if numeral.IsCounted ∧ type.widened.Holds numeral.value then
        .took (.integer numeral.value) numeral.octets.length
          ((readDecimal type.widened).start cursor) []
      else
        .missed type.widened.name ((readDecimal type.widened).start cursor)
          (Scan.rollbacks [type.widened.name] cursor.position) := by
  have sameNumeral : Decimal.Numeral.ofText type.widened.isSigned cursor.remaining = numeral := by
    rw [isSigned_widened]
    exact numeralEq
  exact Decimal.run_readDecimal_word (widened_widened type) valid sameNumeral
    (Arithmetic.reaches_wrapping _)

/-- A decimal read only succeeds with a numeral whose value both types accept. -/
theorem accepts_of_readDecimal {type : IntType} {numeral : Decimal.Numeral} {reply : Reply}
    (valid : cursor.Valid)
    (numeralEq : Decimal.Numeral.ofText type.isSigned cursor.remaining = numeral)
    (succeeds : ((readDecimal type).run cursor).result = .ok reply) :
    (numeral.IsCounted ∧ type.widened.Holds numeral.value) ∧
      Decimal.Accepts type cursor.options numeral.value := by
  rw [run_readDecimal type valid numeralEq] at succeeds
  split at succeeds
  next found =>
      split at succeeds
      next accepted => exact ⟨found, accepted⟩
      next => cases succeeds
  next => cases succeeds

/-- A hexadecimal read only succeeds with a number that the type accepts. -/
theorem accepts_of_readHex {type : IntType} {order : ByteOrder} {numeral : Hexadecimal.Numeral}
    {reply : Reply} (valid : cursor.Valid)
    (numeralEq : Hexadecimal.Numeral.ofText cursor.options cursor.remaining = numeral)
    (succeeds : ((readHex type order).run cursor).result = .ok reply) :
    numeral.digits ≠ [] ∧
      Hexadecimal.Accepts type cursor.options (Hexadecimal.number numeral.digits) := by
  rw [run_readHex type order valid numeralEq] at succeeds
  split at succeeds
  next => cases succeeds
  next found =>
      split at succeeds
      next accepted => exact ⟨found, accepted⟩
      next => cases succeeds

/-- A read that succeeds ends where its word ends. -/
theorem exists_word_of_ok {call word : Call} {reply : Reply} (valid : cursor.Valid)
    (wordEq : call.word? = some word) (succeeds : (call.run cursor).result = .ok reply) :
    ∃ value, (word.run cursor).result = .ok (.integer value) ∧
      (word.run cursor).state.cursor = (call.run cursor).state.cursor := by
  cases call with
  | readDecimal type =>
      cases wordEq
      obtain ⟨found, accepted⟩ := accepts_of_readDecimal valid rfl succeeds
      rw [run_word_readDecimal type valid rfl, run_readDecimal type valid rfl, if_pos found,
        if_pos found, if_pos accepted]
      exact ⟨_, rfl, rfl⟩
  | readHex type order =>
      cases wordEq
      obtain ⟨found, accepted⟩ := accepts_of_readHex valid rfl succeeds
      rw [Hexadecimal.run_readHex_word valid rfl, run_readHex type order valid rfl, if_neg found,
        if_neg found, if_pos accepted]
      exact ⟨_, rfl, rfl⟩
  | _ => cases wordEq

end Call

end ByteCursor
