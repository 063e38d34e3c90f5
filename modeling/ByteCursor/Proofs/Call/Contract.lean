import ByteCursor.Proofs.Decimal.Language

/-!
# Calls keep the contracts of the primitives

The primitives demand that what they touch exists: that octets which are passed over or sliced
are there, that a copy fits, that windows are not empty and that sums are machine words.  A scan
keeps the contracts if no demand fails that it comes to.

Calls keep all of these.  A program that checks its counts demands one thing more, that a decimal
number has fewer than `2 ^ 31` digits, and breaks off at the digit after so many; otherwise it does
the same.  Requests to the raw view break a contract exactly where too few octets are left, and then
nothing has changed.
-/

namespace ByteCursor

namespace Scan

variable {α : Type} {state : State}

/-- No demand fails that the scan comes to. -/
def KeepsContracts (scan : Scan α) (state : State) : Prop :=
  ∀ breach, (scan.run state).result ≠ .error (.breach breach)

/-! ## One octet at a time -/

/-- Pass over unread octets of a class one after the other, at most `limit` of them. -/
def takeEach (inClass : UInt8 → Bool) : (limit : Nat) → Scan Bytes
  | 0 => pure []
  | limit + 1 => do
      let cursor ← cursor
      match cursor.peek with
      | none => pure []
      | some byte =>
          if inClass byte then do
            advance 1
            let rest ← takeEach inClass limit
            pure (byte :: rest)
          else pure []

/-- Every single pass finds an octet, and together they take the longest run. -/
theorem run_takeEach (inClass : UInt8 → Bool) (limit : Nat) (valid : state.cursor.Valid) :
    (takeEach inClass limit).run state =
      .took ((state.cursor.remaining.take limit).takeWhile inClass)
        ((state.cursor.remaining.take limit).takeWhile inClass).length state [] := by
  induction limit generalizing state with
  | zero => rfl
  | succ limit ih =>
      rw [takeEach, run_bind_of_ok (run_cursor state), Cursor.peek_eq_head?]
      cases unread : state.cursor.remaining with
      | nil => rfl
      | cons byte rest =>
          have fits : 1 ≤ state.cursor.available := by
            rw [← Cursor.length_remaining, unread, List.length_cons]
            exact Nat.succ_pos _
          have later : (state.pass 1).cursor.remaining = rest := by
            rw [State.cursor_pass, Cursor.remaining_pass, unread, List.drop_one, List.tail_cons]
          have passed : (state.pass 1).cursor.Valid := valid.pass fits
          have taken := ih passed
          rw [later, Outcome.took_pass] at taken
          cases isMember : inClass byte with
          | false =>
              simp only [List.head?_cons, isMember, List.take_succ_cons, List.takeWhile_cons]
              rfl
          | true =>
              simp only [List.head?_cons, isMember, if_true, List.take_succ_cons,
                List.takeWhile_cons, List.length_cons]
              rw [run_bind_of_ok (run_advance_of_valid valid fits), run_bind_of_ok taken,
                Nat.add_comm _ 1]
              rfl

theorem run_takeEach_maxDigits (valid : state.cursor.Valid) :
    (takeEach Bytes.isHexDigit Hexadecimal.maxDigits).run state = takeHexDigits.run state := by
  have same : (state.cursor.remaining.take Hexadecimal.maxDigits).takeWhile Bytes.isHexDigit =
      Hexadecimal.digitsOf state.cursor.remaining := List.take_takeWhile.symm
  rw [run_takeEach _ _ valid, run_takeHexDigits valid, same]

end Scan

variable {cursor : Cursor}

/-! ## Calls and raw requests -/

theorem Call.keepsContracts (call : Call) (valid : cursor.Valid) :
    call.scan.KeepsContracts (call.start cursor) := by
  have ends : call.Ends cursor (call.scan.run (call.start cursor)) := call.ends valid
  rw [Scan.KeepsContracts]
  generalize call.scan.run (call.start cursor) = outcome at ends
  cases ends with
  | refused objection => simp [Scan.Outcome.refused]
  | missed accepted => simp [Scan.Outcome.missed]
  | took accepted unread takes => simp [Scan.Outcome.took]

theorem RawRequest.keepsContracts_iff (request : RawRequest) (valid : cursor.Valid) :
    request.scan.KeepsContracts (request.start cursor) ↔ request.demand ≤ cursor.available := by
  have ends : request.Ends cursor (request.scan.run (request.start cursor)) := request.ends valid
  rw [Scan.KeepsContracts]
  generalize request.scan.run (request.start cursor) = outcome at ends
  cases ends with
  | breached short => simp [Scan.Outcome.breached, Nat.not_le.mpr short]
  | took length unread takes =>
      have fits := Cursor.length_le_available unread
      simp [Scan.Outcome.took, ← length, fits]

/-! ## Counted digits -/

/-- The call reads a decimal number with more digits than can be counted. -/
def Call.Overcounts (call : Call) (cursor : Cursor) : Prop :=
  ∃ (type : IntType) (numeral : Decimal.Numeral) (rest : Bytes), call = .readDecimal type ∧
    numeral.SplitsOff type.isSigned cursor.remaining rest ∧ 2 ^ 31 ≤ numeral.digits.length

namespace Call

variable {call : Call}

/-- A program that checks its counts breaks off where there are too many digits. -/
theorem result_checked_of_overcounts (valid : cursor.Valid) (overcounts : call.Overcounts cursor) :
    (call.run cursor .checked).result = .error (.breach .countOverflow) := by
  obtain ⟨type, numeral, rest, rfl, splits, long⟩ := overcounts
  rw [run_readDecimal_overflow type valid splits.ofText_eq long]
  rfl

/-- Everywhere else it does the same as one that lets them wrap. -/
theorem run_checked_of_not_overcounts (valid : cursor.Valid)
    (countable : ¬ call.Overcounts cursor) : call.run cursor .checked = call.run cursor := by
  cases call with
  | readDecimal type =>
      obtain ⟨numeral, numeralEq⟩ :
          ∃ numeral, Decimal.Numeral.ofText type.isSigned cursor.remaining = numeral := ⟨_, rfl⟩
      have short : numeral.digits.length < 2 ^ 31 := by
        by_contra notShort
        have long := Nat.not_lt.mp notShort
        have nonempty : numeral.digits ≠ [] := List.ne_nil_of_length_pos (by omega)
        rw [← numeralEq] at nonempty
        obtain ⟨rest, splits⟩ := Decimal.Numeral.splitsOff_ofText nonempty
        rw [numeralEq] at splits
        exact countable ⟨type, numeral, rest, rfl, splits, long⟩
      rw [run_readDecimal type valid numeralEq]
      exact run_readDecimal_of_reaches type valid numeralEq (fun _ => short)
  | _ => rfl

/-- A program that checks its counts demands only that there are not too many digits. -/
theorem keepsContracts_checked_iff (valid : cursor.Valid) :
    (call.scan .checked).KeepsContracts (call.start cursor) ↔ ¬ call.Overcounts cursor := by
  constructor
  · intro kept overcounts
    exact kept .countOverflow (result_checked_of_overcounts valid overcounts)
  · intro countable breach broken
    have same := congrArg Scan.Outcome.result (run_checked_of_not_overcounts valid countable)
    exact call.keepsContracts valid breach (same.symm.trans broken)

end Call

/-- On a cursor that can come up, every call meets every demand on its way, whatever its arguments;
passing over hexadecimal digits octet by octet would as well.  Where counts are checked, the calls
with too many decimal digits break off and all others do the same.  A raw request meets its demands
exactly if enough octets are left, and otherwise neither the cursor nor the buffer has changed. -/
theorem Cursor.calls_keep_contracts (reachable : cursor.Reachable) :
    (∀ call : Call, call.scan.KeepsContracts (call.start cursor)) ∧
      (∀ call : Call,
        ((call.scan .checked).KeepsContracts (call.start cursor) ↔ ¬ call.Overcounts cursor) ∧
          (call.Overcounts cursor →
            (call.run cursor .checked).result = .error (.breach .countOverflow)) ∧
          (¬ call.Overcounts cursor → call.run cursor .checked = call.run cursor)) ∧
      (∀ state : Scan.State, state.cursor.Valid →
        (Scan.takeEach Bytes.isHexDigit Hexadecimal.maxDigits).run state =
          Scan.takeHexDigits.run state) ∧
      ∀ request : RawRequest,
        (request.scan.KeepsContracts (request.start cursor) ↔
            request.demand ≤ cursor.available) ∧
          ∀ failure, (request.run cursor).result = .error failure →
            (request.run cursor).state = { cursor := cursor, output := request.output } := by
  have valid := reachable.valid
  refine ⟨?calls, ?counts, ?loop, ?requests⟩
  case calls =>
    intro call
    exact call.keepsContracts valid
  case counts =>
    intro call
    exact ⟨Call.keepsContracts_checked_iff valid, Call.result_checked_of_overcounts valid,
      Call.run_checked_of_not_overcounts valid⟩
  case loop =>
    intro state stateValid
    exact Scan.run_takeEach_maxDigits stateValid
  case requests =>
    intro request
    constructor
    · exact request.keepsContracts_iff valid
    · intro failure failed
      exact (request.ends valid).state_of_error failed

/-- At the end of a text the largest slice is asked for, which is an error and no breach, and
one octet is passed over, which is a breach. -/
theorem Cursor.calls_keep_contracts_exhausted :
    let cursor : Cursor := { bytes := [0x31], position := 1, options := {} }
    let slice : Call := .readSlice (sizeLimit - 1)
    let request : RawRequest := .advance 1
    cursor.Reachable ∧ slice.scan.KeepsContracts (slice.start cursor) ∧
      (slice.scan .checked).KeepsContracts (slice.start cursor) ∧
      ¬ request.scan.KeepsContracts (request.start cursor) := by
  intro cursor slice request
  have reachable : cursor.Reachable :=
    ⟨_, (Session.Reachable.ofText (List.cons_ne_nil 0x31 []) (by decide) {}).after
      (.call .readByte), rfl⟩
  have countable : ¬ (Call.readSlice (sizeLimit - 1)).Overcounts cursor := by
    rintro ⟨type, numeral, rest, isDecimal, -⟩
    cases isDecimal
  rcases calls_keep_contracts reachable with ⟨calls, counts, -, requests⟩
  refine ⟨reachable, calls slice, (counts slice).1.mpr countable, ?_⟩
  rw [(requests request).1]
  decide

theorem Call.overcounts_onZeros {zeros : Nat} (type : IntType) (long : 2 ^ 31 ≤ zeros + 1) :
    (Call.readDecimal type).Overcounts (Cursor.onZeros zeros) := by
  obtain ⟨⟨rest, splits⟩, -⟩ :=
    Decimal.startsWithin_onZeros type.isSigned zeros (Int.le_refl 0) (Int.le_refl 0)
  rw [← Decimal.length_digits_onZeros] at long
  exact ⟨type, _, rest, rfl, splits, long⟩

/-- Where counts are checked, the read of zero in `2 ^ 31` digits breaks a contract. -/
theorem Cursor.calls_break_off :
    let cursor := Cursor.onZeros (2 ^ 31 - 1)
    cursor.Reachable ∧
      ((Call.readDecimal .u32).run cursor .checked).result = .error (.breach .countOverflow) ∧
      ¬ (((Call.readDecimal .u32).scan .checked).KeepsContracts
        ((Call.readDecimal .u32).start cursor)) := by
  intro cursor
  have reachable : Session.Reachable { cursor := cursor } := Decimal.reachable_onZeros (by decide)
  have overcounts : (Call.readDecimal .u32).Overcounts cursor :=
    Call.overcounts_onZeros .u32 (by decide)
  have valid := reachable.valid.cursor
  refine ⟨⟨_, reachable, rfl⟩, Call.result_checked_of_overcounts valid overcounts, ?_⟩
  rw [Call.keepsContracts_checked_iff valid]
  exact not_not.mpr overcounts

end ByteCursor
