import ByteCursor.Proofs.Call.Ends
import ByteCursor.Proofs.Raw

/-!
# Cursors that are moved elsewhere

A relocation takes cursors to others with the same octets unread, so much further on.  A scan that
looks at nothing else does the same there, at places that lie so much further on.  The scans of
integers also look at the options, and follow where these lead to the same verdict.
-/

namespace ByteCursor

/-! ## Places further on -/

/-- The error at a place so much further on. -/
def ReadError.shift (distance : Nat) : ReadError → ReadError
  | .parse what offset => .parse what (distance + offset)
  | error => error

/-- The failure at a place so much further on; a breach tells of no place. -/
def Failure.shift (distance : Nat) : Failure → Failure
  | .error cause => .error (cause.shift distance)
  | .breach cause => .breach cause

/-- The event at a place so much further on. -/
def Event.shift (distance : Nat) : Event → Event
  | .rolledBack what offset => .rolledBack what (distance + offset)
  | .substringNotAtCursor offset => .substringNotAtCursor (distance + offset)
  | .substringNotFound offset => .substringNotFound (distance + offset)
  | .stopNotFound offset limit => .stopNotFound (distance + offset) limit
  | event => event

@[simp] theorem ReadError.kind_shift (distance : Nat) (error : ReadError) :
    (error.shift distance).kind = error.kind := by
  cases error <;> rfl

theorem ReadError.shift_shift (first second : Nat) (error : ReadError) :
    (error.shift second).shift first = error.shift (first + second) := by
  cases error <;> simp [shift, Nat.add_assoc]

theorem Failure.shift_shift (first second : Nat) (failure : Failure) :
    (failure.shift second).shift first = failure.shift (first + second) := by
  cases failure with
  | error cause => simp [shift, ReadError.shift_shift]
  | breach cause => rfl

theorem Event.shift_shift (first second : Nat) (event : Event) :
    (event.shift second).shift first = event.shift (first + second) := by
  cases event <;> simp [shift, Nat.add_assoc]

/-! ## Options that agree -/

/-- The options skip the same before a hexadecimal number. -/
structure Options.SameLead (first second : Options) : Prop where
  trims : first.hexTrimSpaces = second.hexTrimSpaces
  skips : first.hexPrefix = second.hexPrefix

theorem Options.SameLead.ofText_eq {first second : Options} (lead : first.SameLead second)
    (text : Bytes) :
    Hexadecimal.Numeral.ofText first text = Hexadecimal.Numeral.ofText second text := by
  have spaces : Hexadecimal.spacesOf first = Hexadecimal.spacesOf second := by
    funext text
    rw [Hexadecimal.spacesOf, Hexadecimal.spacesOf, lead.trims]
  have mark : Hexadecimal.markOf first = Hexadecimal.markOf second := by
    funext text
    rw [Hexadecimal.markOf, Hexadecimal.markOf, lead.skips]
  rw [Hexadecimal.Numeral.ofText, Hexadecimal.Numeral.ofText, spaces, mark]

/-- The narrow types whose reads look at how values are narrowed. -/
def IntType.IsNarrowSigned (type : IntType) : Prop := type = .i16 ∨ type = .i8

instance (type : IntType) : Decidable type.IsNarrowSigned := inferInstanceAs (Decidable (_ ∨ _))

theorem IntType.plain_or_i32 {type : IntType} (wide : ¬ type.IsNarrowSigned) :
    type.isSigned = false ∨ type = .i32 := by
  cases type with
  | u32 | u16 | u8 => exact .inl rfl
  | i32 => exact .inr rfl
  | i16 => exact absurd (.inl rfl) wide
  | i8 => exact absurd (.inr rfl) wide

/-- Only the narrow types with a sign look at the narrowing. -/
theorem Decimal.accepts_congr {type : IntType} {first second : Options} {value : Int}
    (same : type.IsNarrowSigned → first.narrowing = second.narrowing)
    (held : type.widened.Holds value) :
    Accepts type first value ↔ Accepts type second value := by
  by_cases narrow : type.IsNarrowSigned
  · rw [Accepts, Accepts, same narrow]
  · rcases IntType.plain_or_i32 narrow with plain | rfl
    · simp [Accepts, plain]
    · exact iff_of_true (.inl held) (.inl held)

theorem Hexadecimal.accepts_congr {type : IntType} {first second : Options} {number : Nat}
    (same : type.IsNarrowSigned → first.narrowing = second.narrowing)
    (isWord : number < IntType.u32.size) :
    Accepts type first number ↔ Accepts type second number := by
  by_cases narrow : type.IsNarrowSigned
  · rw [Accepts, Accepts, same narrow]
  · rcases IntType.plain_or_i32 narrow with plain | rfl
    · simp [Accepts, plain]
    · exact iff_of_true (.inl isWord) (.inl isWord)

theorem Hexadecimal.number_digitsOf_lt (text : Bytes) :
    number (digitsOf text) < IntType.u32.size := by
  rw [← toNat_word_digitsOf]
  exact (word (digitsOf text)).toNat_lt

/-! ## Relocations -/

namespace Cursor

/-- A way to move cursors that keeps the octets unread and puts every place so much further on. -/
structure Relocation where
  move : Cursor → Cursor
  distance : Nat
  remaining_move (cursor : Cursor) : (move cursor).remaining = cursor.remaining
  length_move (cursor : Cursor) : (move cursor).length = distance + cursor.length
  seek_move (cursor : Cursor) (position : Nat) :
    (move cursor).seek (distance + position) = move (cursor.seek position)

variable {cursor : Cursor}

namespace Relocation

attribute [simp] remaining_move length_move seek_move

variable (relocation : Relocation)

@[simp] theorem position_move (cursor : Cursor) :
    (relocation.move cursor).position = relocation.distance + cursor.position :=
  congrArg position (relocation.seek_move cursor cursor.position).symm

@[simp] theorem available_move (cursor : Cursor) :
    (relocation.move cursor).available = cursor.available := by
  rw [← length_remaining, remaining_move, length_remaining]

@[simp] theorem pass_move (cursor : Cursor) (count : Nat) :
    (relocation.move cursor).pass count = relocation.move (cursor.pass count) := by
  rw [pass, position_move, Nat.add_assoc, seek_move, pass]

theorem isEmpty_move (cursor : Cursor) : (relocation.move cursor).isEmpty = cursor.isEmpty := by
  rw [Bool.eq_iff_iff, isEmpty_iff, isEmpty_iff, available_move]

theorem peek_move (cursor : Cursor) : (relocation.move cursor).peek = cursor.peek := by
  rw [peek_eq_head?, peek_eq_head?, remaining_move]

theorem valid_of_move (valid : (relocation.move cursor).Valid) : cursor.Valid := by
  have inside := valid.inside
  have isWord := valid.isWord
  rw [position_move, length_move] at inside
  rw [length_move] at isWord
  exact ⟨by omega, by omega⟩

end Relocation

/-- The cursor behind some more octets that are read already. -/
def behind (consumed : Bytes) (cursor : Cursor) : Cursor where
  bytes := consumed ++ cursor.bytes
  position := consumed.length + cursor.position
  options := cursor.options

/-- Putting more octets before a cursor. -/
def Relocation.behind (consumed : Bytes) : Relocation where
  move := Cursor.behind consumed
  distance := consumed.length
  remaining_move cursor := by simp [remaining, Cursor.behind, List.drop_append]
  length_move _ := List.length_append
  seek_move _ _ := rfl

/-- The cursor with nothing read whose octets are the unread ones. -/
def rebased (cursor : Cursor) : Cursor where
  bytes := cursor.remaining
  position := 0
  options := cursor.options

/-- A valid cursor stands behind the octets that it has read. -/
theorem Valid.eq_behind (valid : cursor.Valid) :
    cursor = cursor.rebased.behind (cursor.bytes.take cursor.position) := by
  have length : (cursor.bytes.take cursor.position).length = cursor.position :=
    List.length_take_of_le valid.inside
  rcases cursor with ⟨bytes, position, options⟩
  simp only [behind, rebased, remaining, List.take_append_drop, mk.injEq]
  exact ⟨trivial, length.symm, trivial⟩

end Cursor

namespace Scan

/-- The state with its cursor moved. -/
def State.move (relocation : Cursor.Relocation) (state : State) : State :=
  { state with cursor := relocation.move state.cursor }

/-- The outcome of a scan that works on the moved cursor. -/
def Outcome.move {α : Type} (relocation : Cursor.Relocation) (outcome : Outcome α) :
    Outcome α where
  result := outcome.result.mapError (Failure.shift relocation.distance)
  state := outcome.state.move relocation
  events := outcome.events.map (Event.shift relocation.distance)

variable {α β : Type} {relocation : Cursor.Relocation} {state : State}

@[simp] theorem State.cursor_move :
    (state.move relocation).cursor = relocation.move state.cursor := rfl

@[simp] theorem State.output_move : (state.move relocation).output = state.output := rfl

@[simp] theorem Outcome.move_took (value : α) (count : Nat) (events : List Event) :
    (took value count state events).move relocation =
      took value count (state.move relocation)
        (events.map (Event.shift relocation.distance)) := by
  simp [move, took, State.move, State.pass, Except.mapError]

@[simp] theorem Outcome.move_missed (what : String) (events : List Event) :
    (missed what state events : Outcome α).move relocation =
      missed what (state.move relocation) (events.map (Event.shift relocation.distance)) := by
  simp [move, missed, Except.mapError, Failure.shift, ReadError.shift]

@[simp] theorem Outcome.move_refused (what : String) :
    (refused what state : Outcome α).move relocation = refused what (state.move relocation) := rfl

@[simp] theorem Outcome.move_breached (breach : Breach) :
    (breached breach state : Outcome α).move relocation =
      breached breach (state.move relocation) := rfl

@[simp] theorem map_shift_rollbacks (layers : List String) (start distance : Nat) :
    (rollbacks layers start).map (Event.shift distance) =
      rollbacks layers (distance + start) := by
  simp [rollbacks, Event.shift]

/-- On moved cursors the scan does the same. -/
def Follows (relocation : Cursor.Relocation) (scan : Scan α) : Prop :=
  ∀ state : State, (state.move relocation).cursor.Valid →
    scan.run (state.move relocation) = (scan.run state).move relocation

theorem Follows.map (f : α → β) {scan : Scan α} (follows : scan.Follows relocation) :
    (f <$> scan).Follows relocation := by
  intro state valid
  rw [run_map, run_map, follows state valid]
  rcases scan.run state with ⟨result, later, events⟩
  cases result with
  | ok value => simp [Outcome.move, Except.mapError]
  | error failure => rfl

theorem follows_pure (value : α) : (pure value : Scan α).Follows relocation := by
  intro state _
  rfl

theorem follows_mismatch (what : String) : (mismatch what : Scan α).Follows relocation := by
  intro state _
  rw [run_mismatch_eq_missed, run_mismatch_eq_missed, Outcome.move_missed, List.map_nil]

/-- Going back to the place where a scan began follows the cursor. -/
theorem Follows.atomic (what : String) {body : Scan α} (follows : body.Follows relocation) :
    (atomic what body).Follows relocation := by
  intro state valid
  rw [run_atomic, run_atomic, follows state valid]
  rcases body.run state with ⟨result, later, events⟩
  cases result with
  | ok value => rfl
  | error failure =>
      cases failure with
      | breach breach => rfl
      | error error =>
          cases error <;>
            simp [Outcome.move, Except.mapError, Failure.shift, ReadError.shift,
              ReadError.relabel, Event.shift, State.move]

/-! ## Single octets -/

/-- What is done with the next octet may depend on the octet. -/
theorem follows_readByte_bind {next : UInt8 → Scan α}
    (later : ∀ byte, (next byte).Follows relocation) :
    (readByte >>= next).Follows relocation := by
  intro state valid
  have validHere : state.cursor.Valid := relocation.valid_of_move valid
  have sameUnread : (state.move relocation).cursor.remaining = state.cursor.remaining :=
    relocation.remaining_move _
  cases unread : state.cursor.remaining with
  | nil =>
      rw [run_bind, run_bind, run_readByte_nil unread,
        run_readByte_nil (sameUnread.trans unread)]
      simp
  | cons byte rest =>
      have passed : (state.move relocation).pass 1 = (state.pass 1).move relocation := by
        simp [State.pass, State.move]
      have fits : 1 ≤ (state.move relocation).cursor.available := by
        rw [← Cursor.length_remaining, sameUnread, unread, List.length_cons]
        omega
      have passedValid : ((state.pass 1).move relocation).cursor.Valid := by
        rw [← passed]
        exact valid.pass fits
      rw [run_bind_of_ok (run_readByte_cons validHere unread),
        run_bind_of_ok (run_readByte_cons valid (sameUnread.trans unread)), passed]
      exact later byte (state.pass 1) passedValid

theorem follows_readByte : readByte.Follows relocation := by
  rw [← bind_pure readByte]
  exact follows_readByte_bind follows_pure

theorem follows_readChar : readChar.Follows relocation :=
  follows_readByte_bind fun byte => follows_pure (Char.ofNat byte.toNat)

theorem follows_readBool : readBool.Follows relocation := by
  apply Follows.atomic
  apply follows_readByte_bind
  intro byte
  split
  next => exact follows_pure false
  next =>
      split
      next => exact follows_pure true
      next => exact follows_mismatch "bool"

theorem follows_skipByte (expected : UInt8) : (skipByte expected).Follows relocation := by
  apply Follows.atomic
  apply follows_readByte_bind
  intro byte
  split
  next => exact follows_pure ()
  next => exact follows_mismatch "skip char"

theorem follows_skipPastByte (stop : UInt8) : (skipPastByte stop).Follows relocation := by
  intro state valid
  have validHere := relocation.valid_of_move valid
  rw [run_skipPastByte stop valid, run_skipPastByte stop validHere,
    State.cursor_move, relocation.remaining_move]
  split
  next => simp
  next => simp [Event.shift]

/-! ## Patterns -/

theorem follows_skipPattern (pattern : Bytes) : (skipPattern pattern).Follows relocation := by
  intro state valid
  have validHere := relocation.valid_of_move valid
  by_cases empty : pattern = []
  · subst empty
    rw [run_skipPattern_nil, run_skipPattern_nil, Outcome.move_refused]
  · rw [run_skipPattern empty valid, run_skipPattern empty validHere,
      State.cursor_move, relocation.remaining_move]
    split
    next => simp
    next => simp [Event.shift]

theorem follows_skipPastPattern (pattern : Bytes) :
    (skipPastPattern pattern).Follows relocation := by
  intro state valid
  have validHere := relocation.valid_of_move valid
  by_cases empty : pattern = []
  · subst empty
    rw [run_skipPastPattern_nil, run_skipPastPattern_nil, Outcome.move_refused]
  · rw [run_skipPastPattern empty valid, run_skipPastPattern empty validHere,
      State.cursor_move, relocation.remaining_move]
    split
    next => simp
    next => simp [Event.shift]

/-! ## Slices and copies -/

theorem follows_readSlice (size : Nat) : (readSlice size).Follows relocation := by
  intro state valid
  have validHere := relocation.valid_of_move valid
  rw [run_readSlice size valid, run_readSlice size validHere, State.cursor_move,
    relocation.available_move, relocation.remaining_move]
  split
  next => simp
  next => simp

theorem follows_readSliceUntil (stop : UInt8) : (readSliceUntil stop).Follows relocation := by
  intro state valid
  have validHere := relocation.valid_of_move valid
  rw [run_readSliceUntil stop valid, run_readSliceUntil stop validHere,
    State.cursor_move, relocation.remaining_move]
  split
  next => simp
  next => simp

theorem follows_readTextUntil (stop : UInt8) : (readTextUntil stop).Follows relocation := by
  intro state valid
  have validHere := relocation.valid_of_move valid
  rw [run_readTextUntil stop valid, run_readTextUntil stop validHere,
    State.cursor_move, relocation.remaining_move]
  split
  next =>
      split
      next => simp
      next => simp [Event.shift]
  next => simp [Event.shift]

theorem follows_trimSpaces : trimSpaces.Follows relocation := by
  intro state valid
  have validHere := relocation.valid_of_move valid
  rw [run_trimSpaces valid, run_trimSpaces validHere, State.cursor_move,
    relocation.available_move, relocation.remaining_move]
  split
  next => simp
  next => simp

theorem follows_copySlice (size : Nat) : (copySlice size).Follows relocation := by
  intro state valid
  have validHere := relocation.valid_of_move valid
  by_cases zero : size = 0
  · subst zero
    rw [run_copySlice_zero, run_copySlice_zero, Outcome.move_refused]
  · by_cases small : state.output.length ≤ size
    · have smallMoved : (state.move relocation).output.length ≤ size := small
      rw [run_copySlice_small zero small, run_copySlice_small zero smallMoved,
        Outcome.move_refused]
    · have room : size < state.output.length := Nat.not_le.mp small
      have roomMoved : size < (state.move relocation).output.length := room
      rw [run_copySlice zero roomMoved valid, run_copySlice zero room validHere,
        State.cursor_move, relocation.available_move, relocation.remaining_move]
      split
      next => simp [State.move]
      next => simp

theorem searched_move (state : State) :
    searched (state.move relocation) = searched state := by
  simp [searched]

theorem follows_copyUntil (stop : UInt8) : (copyUntil stop).Follows relocation := by
  intro state valid
  have validHere := relocation.valid_of_move valid
  have sameOutput : (state.move relocation).output = state.output := rfl
  by_cases empty : state.output = []
  · rw [run_copyUntil_nil empty, run_copyUntil_nil (sameOutput.trans empty),
      Outcome.move_refused]
  · rw [run_copyUntil stop (sameOutput ▸ empty) valid, run_copyUntil stop empty validHere,
      searched_move, State.cursor_move, relocation.available_move, relocation.remaining_move]
    split
    next => simp [State.move]
    next => simp [Event.shift]

/-! ## The raw view -/

theorem follows_advance (count : Nat) : (advance count).Follows relocation := by
  intro state valid
  have validHere := relocation.valid_of_move valid
  have same : (state.move relocation).cursor.available = state.cursor.available :=
    relocation.available_move _
  rcases Nat.lt_or_ge state.cursor.available count with short | fits
  · rw [run_advance_short short, run_advance_short (same ▸ short), same,
      Outcome.move_breached]
  · rw [run_advance_of_valid valid (same ▸ fits), run_advance_of_valid validHere fits]
    simp

theorem follows_remaining : remaining.Follows relocation := by
  intro state valid
  have validHere := relocation.valid_of_move valid
  rw [run_remaining_of_valid valid, run_remaining_of_valid validHere]
  simp

theorem FillsOutput.follows {scan : Scan Unit} (meets : FillsOutput scan) :
    scan.Follows relocation := by
  intro state valid
  have validHere := relocation.valid_of_move valid
  have same : (state.move relocation).cursor.available = state.cursor.available :=
    relocation.available_move _
  rcases Nat.lt_or_ge state.cursor.available state.output.length with short | fits
  · rw [meets.refuses short, meets.refuses (same ▸ short), same, Outcome.move_breached]
    rfl
  · rw [meets.fills valid (same ▸ fits), meets.fills validHere fits]
    simp [State.move]

theorem TakesOctets.follows {α : Type} {scan : Scan α} {count : Nat} {meaning : Bytes → α}
    (meets : TakesOctets scan count meaning) : scan.Follows relocation := by
  intro state valid
  have validHere := relocation.valid_of_move valid
  have same : (state.move relocation).cursor.available = state.cursor.available :=
    relocation.available_move _
  rcases Nat.lt_or_ge state.cursor.available count with short | fits
  · rw [meets.refuses short, meets.refuses (same ▸ short), same, Outcome.move_breached]
  · rw [meets.takes valid (same ▸ fits), meets.takes validHere fits]
    simp

end Scan

/-! ## Calls and requests -/

namespace Call

variable {relocation : Cursor.Relocation} {cursor : Cursor}

@[simp] theorem move_start (call : Call) :
    (call.start cursor).move relocation = call.start (relocation.move cursor) := rfl

/-- A decimal read follows where the type accepts the value as before. -/
theorem run_readDecimal_move {type : IntType} {numeral : Decimal.Numeral}
    (valid : (relocation.move cursor).Valid)
    (numeralEq : Decimal.Numeral.ofText type.isSigned cursor.remaining = numeral)
    (same : type.widened.Holds numeral.value →
      (Decimal.Accepts type (relocation.move cursor).options numeral.value ↔
        Decimal.Accepts type cursor.options numeral.value)) :
    (readDecimal type).run (relocation.move cursor) =
      ((readDecimal type).run cursor).move relocation := by
  have sameNumeral :
      Decimal.Numeral.ofText type.isSigned (relocation.move cursor).remaining = numeral := by
    rw [relocation.remaining_move, numeralEq]
  rw [run_readDecimal type (relocation.valid_of_move valid) numeralEq,
    run_readDecimal type valid sameNumeral]
  split
  next found =>
      simp only [same found.2]
      split
      next => simp
      next => simp
  next => simp

theorem leadEvents_move (lead : (relocation.move cursor).options.SameLead cursor.options) :
    Hexadecimal.leadEvents (relocation.move cursor) =
      (Hexadecimal.leadEvents cursor).map (Event.shift relocation.distance) := by
  simp only [Hexadecimal.leadEvents, Cursor.Relocation.remaining_move, lead.ofText_eq, lead.skips]
  split
  next => simp [Event.shift, Nat.add_assoc]
  next => rfl

/-- A hexadecimal read follows where the same lead is skipped and the type accepts the number as
before. -/
theorem run_readHex_move {type : IntType} {numeral : Hexadecimal.Numeral} (order : ByteOrder)
    (valid : (relocation.move cursor).Valid)
    (lead : (relocation.move cursor).options.SameLead cursor.options)
    (numeralEq : Hexadecimal.Numeral.ofText cursor.options cursor.remaining = numeral)
    (same : numeral.digits ≠ [] →
      (Hexadecimal.Accepts type (relocation.move cursor).options
          (Hexadecimal.number numeral.digits) ↔
        Hexadecimal.Accepts type cursor.options (Hexadecimal.number numeral.digits))) :
    (readHex type order).run (relocation.move cursor) =
      ((readHex type order).run cursor).move relocation := by
  have sameNumeral : Hexadecimal.Numeral.ofText (relocation.move cursor).options
      (relocation.move cursor).remaining = numeral := by
    rw [relocation.remaining_move, lead.ofText_eq, numeralEq]
  rw [run_readHex type order (relocation.valid_of_move valid) numeralEq,
    run_readHex type order valid sameNumeral, leadEvents_move lead]
  split
  next => simp
  next found =>
      simp only [same found]
      split
      next => simp
      next => simp

/-- The options lead the call to the same verdict on every text. -/
def Agrees (call : Call) (first second : Options) : Prop :=
  match call with
  | readDecimal type => type.IsNarrowSigned → first.narrowing = second.narrowing
  | readHex type _ =>
      first.SameLead second ∧ (type.IsNarrowSigned → first.narrowing = second.narrowing)
  | _ => True

theorem agrees_self (call : Call) (options : Options) : call.Agrees options options := by
  cases call with
  | readDecimal type => exact fun _ => rfl
  | readHex type order => exact ⟨⟨rfl, rfl⟩, fun _ => rfl⟩
  | _ => trivial

theorem run_of_follows {call : Call} (follows : call.scan.Follows relocation)
    (valid : (relocation.move cursor).Valid) :
    call.run (relocation.move cursor) = (call.run cursor).move relocation :=
  follows (call.start cursor) valid

/-- A call follows where the options agree. -/
theorem run_move (call : Call) (valid : (relocation.move cursor).Valid)
    (agrees : call.Agrees (relocation.move cursor).options cursor.options) :
    call.run (relocation.move cursor) = (call.run cursor).move relocation := by
  cases call with
  | readDecimal type =>
      exact run_readDecimal_move valid rfl (Decimal.accepts_congr agrees)
  | readHex type order =>
      have isWord := Hexadecimal.number_digitsOf_lt
      exact run_readHex_move order valid agrees.1 rfl fun _ =>
        Hexadecimal.accepts_congr agrees.2 (isWord _)
  | readChar => exact run_of_follows (Scan.follows_readChar.map _) valid
  | readByte => exact run_of_follows (Scan.follows_readByte.map _) valid
  | readBool => exact run_of_follows (Scan.follows_readBool.map _) valid
  | skipByte expected => exact run_of_follows ((Scan.follows_skipByte expected).map _) valid
  | skipPastByte stop => exact run_of_follows ((Scan.follows_skipPastByte stop).map _) valid
  | skipPattern pattern => exact run_of_follows ((Scan.follows_skipPattern pattern).map _) valid
  | skipPastPattern pattern =>
      exact run_of_follows ((Scan.follows_skipPastPattern pattern).map _) valid
  | copySlice output size => exact run_of_follows ((Scan.follows_copySlice size).map _) valid
  | copyUntil output stop => exact run_of_follows ((Scan.follows_copyUntil stop).map _) valid
  | readSlice size => exact run_of_follows ((Scan.follows_readSlice size).map _) valid
  | readSliceUntil stop => exact run_of_follows ((Scan.follows_readSliceUntil stop).map _) valid
  | readTextUntil stop => exact run_of_follows ((Scan.follows_readTextUntil stop).map _) valid
  | trimSpaces => exact run_of_follows (Scan.follows_trimSpaces.map _) valid

end Call

/-- Every request to the raw view follows. -/
theorem RawRequest.run_move {relocation : Cursor.Relocation} {cursor : Cursor}
    (request : RawRequest) (valid : (relocation.move cursor).Valid) :
    request.run (relocation.move cursor) = (request.run cursor).move relocation := by
  have run_of_follows (follows : request.scan.Follows relocation) :
      request.run (relocation.move cursor) = (request.run cursor).move relocation :=
    follows (request.start cursor) valid
  cases request with
  | remaining =>
      apply run_of_follows
      intro state _
      simp [scan, Scan.run_map, Scan.Outcome.move, Except.mapError]
  | hasRemaining =>
      apply run_of_follows
      intro state _
      simp [scan, Scan.run_map, Scan.Outcome.move, Except.mapError]
  | chunk => exact run_of_follows (Scan.follows_remaining.map _)
  | advance count => exact run_of_follows ((Scan.follows_advance count).map _)
  | fill output => exact run_of_follows (Scan.fillsOutput_fillOutput.follows.map _)
  | integer format => exact run_of_follows ((Scan.takesOctets_takeInteger format).follows.map _)

end ByteCursor
