import ByteCursor.Proofs.Hexadecimal.Numeral
import ByteCursor.Proofs.Scan.Pattern
import ByteCursor.Proofs.Scan.Slice

/-!
# What the hexadecimal reads do

A hexadecimal read splits a numeral off the unread octets and takes all of it.  Without a digit
it misses.  A narrow type may refuse the number, and then the whole numeral stays unread.
-/

namespace ByteCursor

namespace Hexadecimal

/-- The name that a hexadecimal read is reported under. -/
def readName (type : IntType) : ByteOrder → String
  | .big => type.name ++ " be"
  | .little => type.name ++ " le"

/-- The layers around the word of a read in the big byte order, the innermost first. -/
def bigLayers (type : IntType) : List String := if type = .u32 then [] else [readName type .big]

/-- The layers around the word of a read, the innermost first. -/
def outerLayers (type : IntType) : ByteOrder → List String
  | .big => bigLayers type
  | .little => bigLayers type ++ [readName type .little]

/-- The event of a mark that could be skipped but is not there. -/
def leadEvents (cursor : Cursor) : List Event :=
  let numeral := Numeral.ofText cursor.options cursor.remaining
  if cursor.remaining ≠ [] ∧ cursor.options.hexPrefix = true ∧ numeral.mark = [] then
    [.substringNotAtCursor (cursor.position + numeral.spaces.length)]
  else []

/-- The number of a word is accepted by the type. -/
def Accepts (type : IntType) (options : Options) (number : Nat) : Prop :=
  number < type.size ∨ (type.isSigned = true ∧ options.narrowing = .permissive)

instance (type : IntType) (options : Options) (number : Nat) :
    Decidable (Accepts type options number) := inferInstanceAs (Decidable (_ ∨ _))

end Hexadecimal

namespace Scan

open Hexadecimal

variable {state : State}

/-- The spaces are skipped if the options say so. -/
theorem run_skipSpaces (valid : state.cursor.Valid) (nonempty : state.cursor.remaining ≠ [])
    (next : Scan Unit) :
    (if state.cursor.options.hexTrimSpaces = true then trimSpaces >>= fun _ => next
      else next).run state =
      next.run (state.pass (spacesOf state.cursor.options state.cursor.remaining).length) := by
  have available : state.cursor.available ≠ 0 := fun none =>
    nonempty (Cursor.remaining_eq_nil_iff.mpr none)
  rw [spacesOf]
  split
  next =>
      have trimmed := run_trimSpaces valid
      rw [if_neg available] at trimmed
      rw [run_bind_of_ok trimmed]
  next => rw [List.length_nil, State.pass_zero]

/-- An optional mark is skipped where it stands, and is missed without harm. -/
theorem run_skipMark (valid : state.cursor.Valid) :
    (if state.cursor.options.hexPrefix = true then attempt (skipPattern mark) else pure ()).run
        state =
      .took () (markOf state.cursor.options state.cursor.remaining).length state
        (if state.cursor.options.hexPrefix = true ∧
            markOf state.cursor.options state.cursor.remaining = [] then
          [.substringNotAtCursor state.cursor.position]
        else []) := by
  rw [markOf]
  cases enabled : state.cursor.options.hexPrefix with
  | false => rfl
  | true =>
      rw [if_pos rfl, run_attempt, run_skipPattern (by decide) valid]
      by_cases starts : mark <+: state.cursor.remaining
      · rw [if_pos starts, if_pos ⟨rfl, starts⟩]
        rfl
      · rw [if_neg starts, if_neg (fun skipped => starts skipped.2)]
        rfl

theorem run_skipHexLead {numeral : Numeral} (valid : state.cursor.Valid)
    (nonempty : state.cursor.remaining ≠ [])
    (numeralEq : Numeral.ofText state.cursor.options state.cursor.remaining = numeral) :
    skipHexLead.run state =
      .took () (numeral.spaces.length + numeral.mark.length) state (leadEvents state.cursor) := by
  let unspaced := state.pass (spacesOf state.cursor.options state.cursor.remaining).length
  have unspacedValid : unspaced.cursor.Valid := by
    apply valid.pass
    rw [← Cursor.length_remaining]
    exact (spacesOf_isPrefix _ _).length_le
  have unspacedEq : unspaced.cursor.remaining = state.cursor.remaining.drop
      (spacesOf state.cursor.options state.cursor.remaining).length := Cursor.remaining_pass _
  have skipped := run_skipMark unspacedValid
  rw [unspacedEq] at skipped
  rw [skipHexLead, run_bind_of_ok (run_cursor state)]
  refine (run_skipSpaces valid nonempty _).trans (skipped.trans ?_)
  subst numeralEq
  rw [Outcome.took_pass, leadEvents]
  simp only [nonempty, ne_eq, not_false_eq_true, true_and]
  rfl

theorem run_takeHexDigits (valid : state.cursor.Valid) :
    takeHexDigits.run state =
      .took (digitsOf state.cursor.remaining) (digitsOf state.cursor.remaining).length state
        [] := by
  have fits : (digitsOf state.cursor.remaining).length ≤ state.cursor.available := by
    rw [← Cursor.length_remaining]
    exact (digitsOf_isPrefix _).length_le
  have same : (state.cursor.remaining.take maxDigits).takeWhile Bytes.isHexDigit =
      digitsOf state.cursor.remaining := List.take_takeWhile.symm
  rw [takeHexDigits, run_bind_of_ok (run_remaining_of_valid valid), State.pass_zero, same,
    run_bind_of_ok (run_advance_of_valid valid fits)]
  rfl

/-- A word is read from the digits of the numeral, and the whole numeral is passed over. -/
theorem run_readHexWord {numeral : Numeral} (valid : state.cursor.Valid)
    (numeralEq : Numeral.ofText state.cursor.options state.cursor.remaining = numeral) :
    readHexWord.run state =
      if numeral.digits = [] then
        .missed "u32 be" state
          (leadEvents state.cursor ++ rollbacks ["u32 be"] state.cursor.position)
      else .took (word numeral.digits) numeral.octets.length state (leadEvents state.cursor) := by
  rw [readHexWord, run_atomic, run_bind_of_ok (run_cursor state)]
  by_cases exhausted : state.cursor.remaining = []
  · have isEmpty : state.cursor.isEmpty = true :=
      (Cursor.isEmpty_iff _).mpr (Cursor.remaining_eq_nil_iff.mp exhausted)
    have noDigits : numeral.digits = [] := by
      rw [← numeralEq, exhausted]
      exact List.prefix_nil.mp (digitsOf_isPrefix _ |>.trans (by simp))
    have noEvents : leadEvents state.cursor = [] := by
      rw [leadEvents, if_neg (fun looked => looked.1 exhausted)]
    rw [if_pos isEmpty, if_pos noDigits, noEvents]
    rfl
  · have goesOn : state.cursor.isEmpty = false :=
      Cursor.isEmpty_eq_false_iff.mpr fun none =>
        exhausted (Cursor.remaining_eq_nil_iff.mpr none)
    let unled := state.pass (numeral.spaces.length + numeral.mark.length)
    have lengthEq : numeral.octets.length =
        numeral.spaces.length + numeral.mark.length + numeral.digits.length := by
      rw [Numeral.octets, List.length_append, List.length_append]
    have unledValid : unled.cursor.Valid := by
      have fits := (Numeral.octets_ofText_isPrefix state.cursor.options
        state.cursor.remaining).length_le
      rw [numeralEq, lengthEq, Cursor.length_remaining] at fits
      exact valid.pass (Nat.le_trans (Nat.le_add_right _ _) fits)
    have unledDigits : digitsOf unled.cursor.remaining = numeral.digits := by
      rw [State.cursor_pass, Cursor.remaining_pass, ← List.drop_drop, ← numeralEq]
      rfl
    rw [goesOn, if_neg Bool.false_ne_true, run_bind, run_skipHexLead valid exhausted numeralEq,
      Outcome.took_andThen]
    have taken := run_takeHexDigits unledValid
    rw [unledDigits] at taken
    rw [run_bind_of_ok taken, lengthEq]
    cases numeral.digits with
    | nil =>
        rw [if_pos rfl, List.isEmpty_nil, if_pos rfl, run_mismatch_eq_missed,
          Outcome.following_missed, List.append_nil, State.pass_pass,
          Outcome.missed_pass_rollBack]
        rfl
    | cons digit digits =>
        rw [if_neg (List.cons_ne_nil digit digits), List.isEmpty_cons,
          if_neg Bool.false_ne_true, run_pure_eq_took, Outcome.following_took, List.append_nil,
          State.pass_pass, Outcome.took_pass, Outcome.took_rollBack]
        rfl

theorem run_narrowHex (type : IntType) (what : String) (word : UInt32) (state : State) :
    (narrowHex type what word).run state =
      if Accepts type state.cursor.options word.toNat then
        .took (type.truncate word.toNat) 0 state []
      else .missed what state [] := by
  rw [narrowHex, run_bind_of_ok (run_cursor state)]
  by_cases accepted : Accepts type state.cursor.options word.toNat
  · rw [if_pos accepted, if_pos (by simpa [Accepts] using accepted)]
    rfl
  · rw [if_neg accepted, if_neg (by simpa [Accepts] using accepted)]
    rfl

theorem readHexBig_of_ne {type : IntType} (narrow : type ≠ .u32) :
    readHexBig type =
      atomic (readName type .big) (readHexWord >>= narrowHex type (readName type .big)) := by
  cases type with
  | u32 => exact absurd rfl narrow
  | u16 => rfl
  | u8 => rfl
  | i32 => rfl
  | i16 => rfl
  | i8 => rfl

/-- Every number of a word is accepted by the type of words, which leaves it as it is. -/
theorem accepts_u32 (options : Options) (word : UInt32) :
    Accepts .u32 options word.toNat ∧ IntType.u32.truncate word.toNat = word.toNat := by
  have below : word.toNat < 2 ^ 32 := word.toNat_lt
  refine ⟨.inl below, IntType.truncate_of_holds ⟨Int.natCast_nonneg _, ?_⟩⟩
  change (word.toNat : Int) ≤ 4294967295
  omega

theorem run_readHexBig {type : IntType} {numeral : Numeral} (valid : state.cursor.Valid)
    (numeralEq : Numeral.ofText state.cursor.options state.cursor.remaining = numeral) :
    (readHexBig type).run state =
      if numeral.digits = [] then
        .missed (readName type .big) state
          (leadEvents state.cursor ++
            rollbacks ("u32 be" :: bigLayers type) state.cursor.position)
      else if Accepts type state.cursor.options (number numeral.digits) then
        .took (type.truncate (number numeral.digits)) numeral.octets.length state
          (leadEvents state.cursor)
      else
        .missed (readName type .big) state
          (leadEvents state.cursor ++ rollbacks (bigLayers type) state.cursor.position) := by
  have wordEq : (word numeral.digits).toNat = number numeral.digits := by
    rw [← numeralEq]
    exact toNat_word_digitsOf _
  have read := run_readHexWord valid numeralEq
  by_cases isWord : type = .u32
  · subst isWord
    rcases accepts_u32 state.cursor.options (word numeral.digits) with ⟨accepted, unchanged⟩
    rw [wordEq] at accepted unchanged
    change (readHexWord >>= fun word => pure (word.toNat : Int)).run state = _
    rw [run_bind, read]
    by_cases missing : numeral.digits = []
    · rw [if_pos missing, if_pos missing, bigLayers, if_pos rfl]
      rfl
    · rw [if_neg missing, if_neg missing, if_pos accepted, unchanged, ← wordEq,
        Outcome.took_andThen, run_pure_eq_took, Outcome.following_took, List.append_nil,
        Outcome.took_pass]
      rfl
  · rw [readHexBig_of_ne isWord, run_atomic, run_bind, read, bigLayers, if_neg isWord]
    by_cases missing : numeral.digits = []
    · rw [if_pos missing, if_pos missing, Outcome.missed_andThen, Outcome.missed_rollBack,
        List.append_assoc]
      rfl
    · rw [if_neg missing, if_neg missing, Outcome.took_andThen, run_narrowHex, State.cursor_pass,
        Cursor.options_pass, wordEq]
      by_cases accepted : Accepts type state.cursor.options (number numeral.digits)
      · rw [if_pos accepted, if_pos accepted, Outcome.following_took, List.append_nil,
          Outcome.took_pass, Outcome.took_rollBack]
        rfl
      · rw [if_neg accepted, if_neg accepted, Outcome.following_missed, List.append_nil,
          Outcome.missed_pass_rollBack]
        rfl

/-- The octets of a value in the order of the read. -/
def inOrder (order : ByteOrder) (type : IntType) (value : Int) : Int :=
  match order with
  | .big => value
  | .little => type.reverseOctets value

/-- A hexadecimal read takes the numeral if the type accepts its number.  Only the layers that
failed tell of the rollback. -/
theorem run_readHex {type : IntType} {numeral : Numeral} (order : ByteOrder)
    (valid : state.cursor.Valid)
    (numeralEq : Numeral.ofText state.cursor.options state.cursor.remaining = numeral) :
    (readHex type order).run state =
      if numeral.digits = [] then
        .missed (readName type order) state
          (leadEvents state.cursor ++
            rollbacks ("u32 be" :: outerLayers type order) state.cursor.position)
      else if Accepts type state.cursor.options (number numeral.digits) then
        .took (inOrder order type (type.truncate (number numeral.digits)))
          numeral.octets.length state (leadEvents state.cursor)
      else
        .missed (readName type order) state
          (leadEvents state.cursor ++
            rollbacks (outerLayers type order) state.cursor.position) := by
  have read : (readHexBig type).run state = _ := run_readHexBig valid numeralEq
  cases order with
  | big => exact read
  | little =>
      have layered (layers : List String) :
          leadEvents state.cursor ++ rollbacks layers state.cursor.position ++
              [.rolledBack (readName type .little) state.cursor.position] =
            leadEvents state.cursor ++
              rollbacks (layers ++ [readName type .little]) state.cursor.position := by
        rw [List.append_assoc, rollbacks, rollbacks, List.map_append]
        rfl
      change (atomic (readName type .little) (readHexBig type) >>=
        fun value => pure (type.reverseOctets value)).run state = _
      rw [run_bind, run_atomic, read]
      split
      next => rw [Outcome.missed_rollBack, layered]; rfl
      next =>
          split
          next =>
              rw [Outcome.took_rollBack, Outcome.took_andThen, run_pure_eq_took,
                Outcome.following_took, List.append_nil, Outcome.took_pass]
              rfl
          next => rw [Outcome.missed_rollBack, layered]; rfl

end Scan

end ByteCursor
