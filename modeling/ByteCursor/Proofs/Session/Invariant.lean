import ByteCursor.Proofs.Session.Reachable

/-!
# The invariant of sessions

A buffer is opened exactly if a zero octet ends it at the given length.  From then on the cursor
and its saved copies never leave the octets before that zero octet, and all that they tell about
what is unread agrees with their position.
-/

namespace ByteCursor

/-- The cursor was opened with the options on the first `length` octets of the buffer, and what
it tells agrees with its position among them. -/
structure Cursor.OpenedOn (cursor : Cursor) (buffer : Bytes) (length : Nat) (options : Options) :
    Prop where
  bytes_eq : cursor.bytes = buffer.take length
  options_eq : cursor.options = options
  length_eq : cursor.length = length
  position_le : cursor.position ≤ length
  available_add_position : cursor.available + cursor.position = length
  /-- The number of unread octets is a difference that is not cut off at zero. -/
  available_eq_sub : (cursor.available : Int) = (length : Int) - cursor.position
  isEmpty_iff : cursor.isEmpty = true ↔ cursor.available = 0
  remaining_eq : cursor.remaining = (buffer.take length).drop cursor.position
  peek_eq : cursor.peek = cursor.remaining.head?
  peek_eq_none_iff : cursor.peek = none ↔ cursor.isEmpty = true
  raw_remaining : (RawRequest.remaining.run cursor).result = .ok (.count cursor.available)
  raw_hasRemaining :
    (RawRequest.hasRemaining.run cursor).result = .ok (.truth (!cursor.isEmpty))
  raw_chunk : (RawRequest.chunk.run cursor).result = .ok (.slice cursor.remaining)

namespace Cursor

/-- A buffer is opened if and only if a zero octet stands at a length other than zero. -/
theorem ofBuffer_isOk_iff (buffer : Bytes) (length : Nat) (options : Options) :
    (∃ opened, ofBuffer buffer length options = .ok opened) ↔
      buffer ≠ [] ∧ length ≠ 0 ∧ length < buffer.length ∧ buffer[length]? = some 0 := by
  constructor
  · rintro ⟨opened, opens⟩
    have terminated := (eq_of_ofBuffer opens).2
    have inside : length < buffer.length := (List.getElem?_eq_some_iff.mp terminated).1
    have nonempty : buffer ≠ [] := List.ne_nil_of_length_pos (Nat.zero_lt_of_lt inside)
    refine ⟨nonempty, ?_, inside, terminated⟩
    rintro rfl
    rw [ofBuffer, List.isEmpty_eq_false_iff.mpr nonempty] at opens
    cases opens
  · rintro ⟨nonempty, notZero, -, terminated⟩
    rw [ofBuffer, List.isEmpty_eq_false_iff.mpr nonempty, if_neg Bool.false_ne_true,
      if_neg notZero, if_pos terminated]
    exact ⟨_, rfl⟩

variable {cursor : Cursor} {buffer : Bytes} {length : Nat} {options : Options}

/-- Two facts about a valid cursor decide everything that it tells. -/
theorem Valid.openedOn (valid : cursor.Valid) (bytesEq : cursor.bytes = buffer.take length)
    (optionsEq : cursor.options = options) (inside : length ≤ buffer.length) :
    cursor.OpenedOn buffer length options := by
  have lengthEq : cursor.length = length := by
    rw [Cursor.length, bytesEq, List.length_take_of_le inside]
  have total : cursor.position + cursor.available = length := by
    rw [valid.position_add_available, lengthEq]
  have remainingEq : cursor.remaining = (buffer.take length).drop cursor.position := by
    rw [remaining, bytesEq]
  have peekEq : cursor.peek = none ↔ cursor.isEmpty = true := by
    rw [peek_eq_head?, List.head?_eq_none_iff, remaining_eq_nil_iff, isEmpty_iff]
  have hasRemaining : decide (0 < cursor.available) = !cursor.isEmpty := by
    cases empty : cursor.isEmpty with
    | true => simpa using (isEmpty_iff cursor).mp empty
    | false => simpa [Nat.pos_iff_ne_zero] using isEmpty_eq_false_iff.mp empty
  have startValid : (RawRequest.chunk.start cursor).cursor.Valid := valid
  have chunk := congrArg Scan.Outcome.result
    (Scan.run_map_of_took (f := Reply.slice) (Scan.run_remaining_of_valid startValid))
  exact
    { bytes_eq := bytesEq
      options_eq := optionsEq
      length_eq := lengthEq
      position_le := by omega
      available_add_position := by omega
      available_eq_sub := by omega
      isEmpty_iff := isEmpty_iff cursor
      remaining_eq := remainingEq
      peek_eq := peek_eq_head? cursor
      peek_eq_none_iff := peekEq
      raw_remaining := rfl
      raw_hasRemaining := congrArg (fun truth => Except.ok (Reply.truth truth)) hasRemaining
      raw_chunk := chunk }

end Cursor

namespace Session

variable {buffer : Bytes} {length : Nat} {options : Options} {start : Cursor}

/-- Every cursor of a run from an opened buffer is opened on it. -/
theorem openedOn_of_mem_run (isWord : buffer.length < sizeLimit)
    (opens : Cursor.ofBuffer buffer length options = .ok start) (steps : List Step)
    {cursor : Cursor} (member : cursor ∈ (run { cursor := start } steps).2.cursors) :
    cursor.OpenedOn buffer length options := by
  have valid := (Reachable.opened isWord opens).valid
  have inside := ((Cursor.ofBuffer_isOk_iff buffer length options).mp ⟨start, opens⟩).2.2.1
  have cursorValid := valid_iff.mp (valid.run steps) cursor member
  rcases Cursor.eq_of_ofBuffer opens with ⟨rfl, -⟩
  rcases exists_pass_of_mem_run valid steps member with ⟨earlier, known, count, -, rfl⟩
  rcases List.mem_singleton.mp known with rfl
  exact cursorValid.openedOn rfl rfl (Nat.le_of_lt inside)

theorem position_le_run {session : Session} (valid : session.Valid) {steps : List Step}
    (forward : ∀ step ∈ steps, step.IsForward) :
    session.cursor.position ≤ (session.run steps).2.cursor.position := by
  rcases exists_pass_run valid forward with ⟨count, -, moved⟩
  rw [moved, Cursor.position_pass]
  exact Nat.le_add_right _ _

/-- A buffer is opened exactly if a zero octet ends it at a length that is not zero.  Every run
from there leaves all cursors within the octets before that zero octet, with what they tell in
agreement with their position, and the position falls at an exchange of cursors only. -/
theorem runs_stay_within_buffer (buffer : Bytes) (isWord : buffer.length < sizeLimit)
    (length : Nat) (options : Options) :
    ((∃ start, Cursor.ofBuffer buffer length options = .ok start) ↔
        buffer ≠ [] ∧ length ≠ 0 ∧ length < buffer.length ∧ buffer[length]? = some 0) ∧
      ∀ start, Cursor.ofBuffer buffer length options = .ok start →
        ∀ steps : List Step,
          let here := (run { cursor := start } steps).2
          (∀ cursor ∈ here.cursor :: here.saved, cursor.OpenedOn buffer length options) ∧
            ∀ more : List Step, (∀ step ∈ more, step.IsForward) →
              here.cursor.position ≤ (here.run more).2.cursor.position := by
  constructor
  · exact Cursor.ofBuffer_isOk_iff buffer length options
  · intro start opens steps here
    have valid := (Reachable.opened isWord opens).valid
    constructor
    · intro cursor member
      exact openedOn_of_mem_run isWord opens steps member
    · intro more forward
      exact position_le_run (valid.run steps) forward

/-- A copy is saved before an octet, a failing skip and a request for too much; the copy and the
cursor that went on both stand in the two octets before the zero octet. -/
theorem runs_stay_within_buffer_saved :
    let buffer : Bytes := [0x61, 0x62, 0x00, 0x63]
    let start : Cursor := { bytes := [0x61, 0x62], position := 0, options := {} }
    let steps : List Step :=
      [.save, .call .readByte, .call (.skipByte 0x61), .raw (.advance 2), .swap]
    let here := (run { cursor := start } steps).2
    buffer.length < sizeLimit ∧ Cursor.ofBuffer buffer 2 {} = .ok start ∧
      here.saved.map Cursor.position = [1] ∧
      (∀ cursor ∈ here.cursor :: here.saved, cursor.OpenedOn buffer 2 {}) := by
  intro buffer start steps here
  have isWord : buffer.length < sizeLimit := by decide
  have opens : Cursor.ofBuffer buffer 2 {} = .ok start := rfl
  exact ⟨isWord, opens, by decide,
    ((runs_stay_within_buffer buffer isWord 2 {}).2 start opens steps).1⟩

end Session

end ByteCursor
