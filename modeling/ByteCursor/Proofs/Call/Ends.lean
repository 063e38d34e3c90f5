import ByteCursor.Proofs.Call.Events
import ByteCursor.Proofs.Call.Token
import ByteCursor.Proofs.Text

/-!
# How calls end

On a valid cursor every call refuses its arguments, misses under its own name, or takes a token.
Which arguments are refused does not depend on the cursor, and only a token moves it.  Each ending
has its own events.
-/

namespace ByteCursor.Call

/-- The outcome is one that the call may have on the cursor, with the events that go with it. -/
inductive Ends (call : Call) (cursor : Cursor) : Scan.Outcome Reply → Prop where
  | refused {what : String} (objection : call.objection? = some what) :
      Ends call cursor (.refused what (call.start cursor))
  | missed (accepted : call.objection? = none) :
      Ends call cursor
        (.missed call.name (call.start cursor)
          (call.markEvents cursor ++ call.missEvents cursor))
  | took {token rest output : Bytes} {reply : Reply} (accepted : call.objection? = none)
      (unread : cursor.remaining = token ++ rest) (takes : call.Takes token rest reply output) :
      Ends call cursor
        (.took reply token.length { cursor := cursor, output := output }
          (call.markEvents cursor))

variable {cursor : Cursor} {call : Call}

theorem Ends.of_refused {what : String} (objection : call.objection? = some what)
    (ran : call.run cursor = .refused what (call.start cursor)) :
    call.Ends cursor (call.run cursor) := by
  rw [ran]
  exact .refused objection

theorem Ends.of_missed {events : List Event} (accepted : call.objection? = none)
    (ran : call.run cursor = .missed call.name (call.start cursor) events)
    (told : events = call.markEvents cursor ++ call.missEvents cursor) :
    call.Ends cursor (call.run cursor) := by
  rw [ran, told]
  exact .missed accepted

theorem Ends.of_took {token rest output : Bytes} {reply : Reply} {count : Nat}
    {events : List Event} (accepted : call.objection? = none)
    (unread : cursor.remaining = token ++ rest) (takes : call.Takes token rest reply output)
    (ran : call.run cursor = .took reply count { cursor := cursor, output := output } events)
    (length : token.length = count) (told : events = call.markEvents cursor) :
    call.Ends cursor (call.run cursor) := by
  rw [ran, ← length, told]
  exact .took accepted unread takes

/-- A success takes a token off the unread octets. -/
theorem Ends.exists_token {outcome : Scan.Outcome Reply} (ends : call.Ends cursor outcome)
    {reply : Reply} (succeeds : outcome.result = .ok reply) :
    ∃ token rest, cursor.remaining = token ++ rest ∧
      outcome.state.cursor = cursor.pass token.length ∧
      call.Takes token rest reply outcome.state.output := by
  cases ends with
  | refused objection => cases succeeds
  | missed accepted => cases succeeds
  | took accepted unread takes =>
      cases succeeds
      exact ⟨_, _, unread, rfl, takes⟩

/-! ## Integers -/

theorem ends_readDecimal (type : IntType) (valid : cursor.Valid) :
    (readDecimal type).Ends cursor ((readDecimal type).run cursor) := by
  obtain ⟨numeral, numeralEq⟩ :
      ∃ numeral, Decimal.Numeral.ofText type.isSigned cursor.remaining = numeral := ⟨_, rfl⟩
  have ran := run_readDecimal type valid numeralEq
  split at ran
  next found =>
      split at ran
      next =>
          have nonempty := found.1.digits_ne_nil
          rw [← numeralEq] at nonempty
          rcases Decimal.Numeral.splitsOff_ofText nonempty with ⟨rest, splits⟩
          rw [numeralEq] at splits
          have unread := splits.text_eq
          rw [unread] at splits
          exact .of_took rfl unread (.readDecimal splits) ran rfl rfl
      next refused =>
          rw [← missEvents_readDecimal_of_refused valid numeralEq found refused] at ran
          exact .of_missed rfl ran rfl
  next missing =>
      rw [← missEvents_readDecimal_of_missing valid numeralEq missing] at ran
      exact .of_missed rfl ran rfl

theorem ends_readHex (type : IntType) (order : ByteOrder) (valid : cursor.Valid) :
    (readHex type order).Ends cursor ((readHex type order).run cursor) := by
  obtain ⟨numeral, numeralEq⟩ :
      ∃ numeral, Hexadecimal.Numeral.ofText cursor.options cursor.remaining = numeral :=
    ⟨_, rfl⟩
  have ran := run_readHex type order valid numeralEq
  rw [leadEvents_eq type order cursor] at ran
  split at ran
  next missing =>
      rw [← missEvents_readHex_of_missing order valid numeralEq missing] at ran
      exact .of_missed rfl ran rfl
  next nonempty =>
      split at ran
      next =>
          have splits := Hexadecimal.Numeral.octets_ofText_isPrefix cursor.options cursor.remaining
          rw [numeralEq] at splits
          rcases splits with ⟨rest, unread⟩
          rw [← unread] at numeralEq
          exact .of_took rfl unread.symm (.readHex numeralEq nonempty) ran rfl rfl
      next =>
          rw [← missEvents_readHex_of_refused order valid numeralEq nonempty] at ran
          exact .of_missed rfl ran rfl

/-! ## Single octets -/

theorem ends_readByte (valid : cursor.Valid) : readByte.Ends cursor (readByte.run cursor) := by
  have validStart : (readByte.start cursor).cursor.Valid := valid
  cases unread : cursor.remaining with
  | nil => exact .of_missed rfl (Scan.run_map_of_missed (Scan.run_readByte_nil unread)) rfl
  | cons byte rest =>
      have scanned := Scan.run_readByte_cons validStart unread
      exact .of_took rfl unread .readByte (Scan.run_map_of_took scanned) rfl rfl

theorem ends_readChar (valid : cursor.Valid) : readChar.Ends cursor (readChar.run cursor) := by
  have validStart : (readChar.start cursor).cursor.Valid := valid
  cases unread : cursor.remaining with
  | nil => exact .of_missed rfl (Scan.run_map_of_missed (Scan.run_readChar_nil unread)) rfl
  | cons byte rest =>
      have scanned := Scan.run_readChar_cons validStart unread
      exact .of_took rfl unread .readChar (Scan.run_map_of_took scanned) rfl rfl

theorem ends_readBool (valid : cursor.Valid) : readBool.Ends cursor (readBool.run cursor) := by
  have validStart : (readBool.start cursor).cursor.Valid := valid
  cases unread : cursor.remaining with
  | nil =>
      exact .of_missed rfl (Scan.run_map_of_missed (Scan.run_atomic_readByte_nil _ _ unread)) rfl
  | cons byte rest =>
      by_cases truth : ∃ value, byte = Scan.truthByte value
      · rcases truth with ⟨value, rfl⟩
        have scanned := Scan.run_readBool_cons validStart value unread
        exact .of_took rfl unread .readBool (Scan.run_map_of_took scanned) rfl rfl
      · have other : ∀ value, byte ≠ Scan.truthByte value := fun value same =>
          truth ⟨value, same⟩
        have scanned := Scan.run_readBool_other validStart unread other
        exact .of_missed rfl (Scan.run_map_of_missed scanned) rfl

theorem ends_skipByte (expected : UInt8) (valid : cursor.Valid) :
    (skipByte expected).Ends cursor ((skipByte expected).run cursor) := by
  have validStart : ((skipByte expected).start cursor).cursor.Valid := valid
  cases unread : cursor.remaining with
  | nil =>
      exact .of_missed rfl (Scan.run_map_of_missed (Scan.run_atomic_readByte_nil _ _ unread)) rfl
  | cons byte rest =>
      by_cases same : byte = expected
      · subst same
        have scanned := Scan.run_skipByte_same validStart unread
        exact .of_took rfl unread .skipByte (Scan.run_map_of_took scanned) rfl rfl
      · have scanned := Scan.run_skipByte_other validStart unread same
        exact .of_missed rfl (Scan.run_map_of_missed scanned) rfl

theorem ends_skipPastByte (stop : UInt8) (valid : cursor.Valid) :
    (skipPastByte stop).Ends cursor ((skipPastByte stop).run cursor) := by
  have validStart : ((skipPastByte stop).start cursor).cursor.Valid := valid
  have scanned := Scan.run_skipPastByte stop validStart
  split at scanned
  next offset found =>
      rcases Bytes.eq_append_of_offsetOf? found with ⟨before, rest, unread, first, rfl⟩
      exact .of_took rfl (unread.trans (List.append_cons _ _ _)) (.skipPastByte first)
        (Scan.run_map_of_took scanned) List.length_append rfl
  next => exact .of_missed rfl (Scan.run_map_of_missed scanned) rfl

/-! ## Patterns -/

theorem ends_skipPattern (pattern : Bytes) (valid : cursor.Valid) :
    (skipPattern pattern).Ends cursor ((skipPattern pattern).run cursor) := by
  by_cases empty : pattern = []
  · subst empty
    exact .of_refused rfl (Scan.run_map_of_refused (Scan.run_skipPattern_nil _))
  · have accepted : (skipPattern pattern).objection? = none := if_neg empty
    have validStart : ((skipPattern pattern).start cursor).cursor.Valid := valid
    have scanned := Scan.run_skipPattern empty validStart
    split at scanned
    next starts =>
        rcases starts with ⟨rest, unread⟩
        exact .of_took accepted unread.symm (.skipPattern empty) (Scan.run_map_of_took scanned)
          rfl rfl
    next => exact .of_missed accepted (Scan.run_map_of_missed scanned) rfl

theorem ends_skipPastPattern (pattern : Bytes) (valid : cursor.Valid) :
    (skipPastPattern pattern).Ends cursor ((skipPastPattern pattern).run cursor) := by
  by_cases empty : pattern = []
  · subst empty
    exact .of_refused rfl (Scan.run_map_of_refused (Scan.run_skipPastPattern_nil _))
  · have accepted : (skipPastPattern pattern).objection? = none := if_neg empty
    have validStart : ((skipPastPattern pattern).start cursor).cursor.Valid := valid
    have scanned := Scan.run_skipPastPattern empty validStart
    split at scanned
    next offset found =>
        obtain ⟨before, rest, unread, rfl, only⟩ :=
          Bytes.eq_append_of_offsetOfPattern? empty found
        exact .of_took accepted unread (.skipPastPattern empty only)
          (Scan.run_map_of_took scanned) List.length_append rfl
    next => exact .of_missed accepted (Scan.run_map_of_missed scanned) rfl

/-! ## Slices and copies -/

theorem ends_readSlice (size : Nat) (valid : cursor.Valid) :
    (readSlice size).Ends cursor ((readSlice size).run cursor) := by
  have validStart : ((readSlice size).start cursor).cursor.Valid := valid
  have scanned := Scan.run_readSlice size validStart
  split at scanned
  next readable =>
      rw [cursor_start] at readable scanned
      rcases Cursor.exists_slice readable.1 with ⟨slice, rest, unread, rfl, sliceEq⟩
      rw [sliceEq] at scanned
      exact .of_took rfl unread .readSlice (Scan.run_map_of_took scanned) rfl rfl
  next => exact .of_missed rfl (Scan.run_map_of_missed scanned) rfl

theorem ends_readSliceUntil (stop : UInt8) (valid : cursor.Valid) :
    (readSliceUntil stop).Ends cursor ((readSliceUntil stop).run cursor) := by
  have validStart : ((readSliceUntil stop).start cursor).cursor.Valid := valid
  have scanned := Scan.run_readSliceUntil stop validStart
  split at scanned
  next offset found =>
      rcases Bytes.eq_append_of_offsetOf? found with ⟨slice, rest, unread, first, rfl⟩
      rw [unread, List.take_left] at scanned
      exact .of_took rfl (unread.trans (List.append_cons _ _ _)) (.readSliceUntil first)
        (Scan.run_map_of_took scanned) List.length_append rfl
  next => exact .of_missed rfl (Scan.run_map_of_missed scanned) rfl

theorem ends_readTextUntil (stop : UInt8) (valid : cursor.Valid) :
    (readTextUntil stop).Ends cursor ((readTextUntil stop).run cursor) := by
  have validStart : ((readTextUntil stop).start cursor).cursor.Valid := valid
  have scanned := Scan.run_readTextUntil stop validStart
  split at scanned
  next offset found =>
      rcases Bytes.eq_append_of_offsetOf? found with ⟨slice, rest, unread, first, rfl⟩
      rw [unread, List.take_left] at scanned
      split at scanned
      next text encoded =>
          have sliceEq := Bytes.ofString_of_toString? encoded
          rw [← sliceEq] at first unread scanned
          exact .of_took rfl (unread.trans (List.append_cons _ _ _)) (.readTextUntil first)
            (Scan.run_map_of_took scanned) List.length_append rfl
      next => exact .of_missed rfl (Scan.run_map_of_missed scanned) rfl
  next => exact .of_missed rfl (Scan.run_map_of_missed scanned) rfl

theorem ends_copySlice (output : Bytes) (size : Nat) (valid : cursor.Valid) :
    (copySlice output size).Ends cursor ((copySlice output size).run cursor) := by
  have validStart : ((copySlice output size).start cursor).cursor.Valid := valid
  by_cases zero : size = 0
  · subst zero
    exact .of_refused rfl (Scan.run_map_of_refused (Scan.run_copySlice_zero _))
  · by_cases small : output.length ≤ size
    · have objection :
          (copySlice output size).objection? = some "output buffer too small" := by
        rw [objection?, if_neg zero, if_pos small]
      exact .of_refused objection
        (Scan.run_map_of_refused (Scan.run_copySlice_small zero small))
    · have accepted : (copySlice output size).objection? = none := by
        rw [objection?, if_neg zero, if_neg small]
      have scanned := Scan.run_copySlice zero (Nat.not_le.mp small) validStart
      split at scanned
      next fits =>
          rw [cursor_start] at fits scanned
          rcases Cursor.exists_slice fits with ⟨slice, rest, unread, rfl, sliceEq⟩
          rw [sliceEq] at scanned
          have nonempty : slice ≠ [] := List.length_pos_iff.mp (Nat.pos_of_ne_zero zero)
          exact .of_took accepted unread (.copySlice nonempty (Nat.not_le.mp small))
            (Scan.run_map_of_took scanned) rfl rfl
      next => exact .of_missed accepted (Scan.run_map_of_missed scanned) rfl

theorem ends_copyUntil (output : Bytes) (stop : UInt8) (valid : cursor.Valid) :
    (copyUntil output stop).Ends cursor ((copyUntil output stop).run cursor) := by
  have validStart : ((copyUntil output stop).start cursor).cursor.Valid := valid
  by_cases empty : output = []
  · subst empty
    exact .of_refused rfl (Scan.run_map_of_refused (Scan.run_copyUntil_nil rfl))
  · have accepted : (copyUntil output stop).objection? = none := if_neg empty
    have scanned := Scan.run_copyUntil stop empty validStart
    split at scanned
    next offset found =>
        rcases Bytes.eq_append_of_offsetOf? found with ⟨slice, behind, searchedEq, first, rfl⟩
        have room : slice.length < output.length := by
          have bound := Scan.length_searched ((copyUntil output stop).start cursor)
          rw [searchedEq, List.length_append, List.length_cons] at bound
          change slice.length < ((copyUntil output stop).start cursor).output.length
          omega
        have starts := Scan.searched_isPrefix ((copyUntil output stop).start cursor)
        rw [searchedEq, List.append_cons] at starts
        rcases (List.prefix_append _ _).trans starts with ⟨rest, unread⟩
        have sliceEq : cursor.remaining.take slice.length = slice := by
          rw [← cursor_start (copyUntil output stop) cursor, ← unread, List.append_assoc,
            List.take_left]
        rw [cursor_start, sliceEq] at scanned
        exact .of_took accepted unread.symm (.copyUntil first room)
          (Scan.run_map_of_took scanned) List.length_append rfl
    next => exact .of_missed accepted (Scan.run_map_of_missed scanned) rfl

theorem ends_trimSpaces (valid : cursor.Valid) :
    trimSpaces.Ends cursor (trimSpaces.run cursor) := by
  have validStart : (trimSpaces.start cursor).cursor.Valid := valid
  have scanned := Scan.run_trimSpaces validStart
  split at scanned
  next => exact .of_missed rfl (Scan.run_map_of_missed scanned) rfl
  next =>
      rw [cursor_start] at scanned
      have unread := Bytes.eq_spaces_append cursor.remaining
      have longest := Bytes.head?_dropWhile_isSpace cursor.remaining
      exact .of_took rfl unread (.trimSpaces longest) (Scan.run_map_of_took scanned)
        List.length_replicate rfl

/-! ## Every call -/

/-- Every call on a valid cursor ends in one of the three ways. -/
theorem ends (call : Call) (valid : cursor.Valid) : call.Ends cursor (call.run cursor) := by
  cases call with
  | readDecimal type => exact ends_readDecimal type valid
  | readHex type order => exact ends_readHex type order valid
  | readChar => exact ends_readChar valid
  | readByte => exact ends_readByte valid
  | readBool => exact ends_readBool valid
  | skipByte expected => exact ends_skipByte expected valid
  | skipPastByte stop => exact ends_skipPastByte stop valid
  | skipPattern pattern => exact ends_skipPattern pattern valid
  | skipPastPattern pattern => exact ends_skipPastPattern pattern valid
  | copySlice output size => exact ends_copySlice output size valid
  | copyUntil output stop => exact ends_copyUntil output stop valid
  | readSlice size => exact ends_readSlice size valid
  | readSliceUntil stop => exact ends_readSliceUntil stop valid
  | readTextUntil stop => exact ends_readTextUntil stop valid
  | trimSpaces => exact ends_trimSpaces valid

end ByteCursor.Call
