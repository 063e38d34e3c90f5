import ByteCursor.Proofs.Outcome
import ByteCursor.Proofs.Search
import ByteCursor.Scan.Slice

/-!
# What the slices and copies do

Each slice is the part of the unread octets that its size or its stop octet bounds.  A copy
leaves the slice, a zero octet and the untouched end of the output buffer, whose length stays.
-/

namespace ByteCursor.Scan

variable {state : State} {size : Nat} {stop : UInt8}

/-! ## Slices -/

theorem run_readSlice (size : Nat) (valid : state.cursor.Valid) :
    (readSlice size).run state =
      if size ≤ state.cursor.available ∧ state.cursor.available ≠ 0 then
        .took (state.cursor.remaining.take size) size state []
      else .missed "read slice" state [] := by
  rw [readSlice, run_bind_of_ok (run_cursor state)]
  by_cases readable : size ≤ state.cursor.available ∧ state.cursor.available ≠ 0
  · have goesOn :
        (decide (state.cursor.available < size) || state.cursor.isEmpty) = false := by
      rw [Cursor.isEmpty_eq_false_iff.mpr readable.2, Bool.or_false, decide_eq_false_iff_not]
      exact Nat.not_lt.mpr readable.1
    have fits : size ≤ state.cursor.remaining.length := by
      rw [Cursor.length_remaining]
      exact readable.1
    rw [if_pos readable, goesOn, if_neg Bool.false_ne_true,
      run_bind_of_ok (run_remaining_of_valid valid), State.pass_zero,
      run_bind_of_ok (run_firstOf fits state),
      run_bind_of_ok (run_advance_of_valid valid readable.1)]
    rfl
  · have stops : (decide (state.cursor.available < size) || state.cursor.isEmpty) = true := by
      rw [Bool.or_eq_true, decide_eq_true_eq, Cursor.isEmpty_iff]
      omega
    rw [if_neg readable, stops, if_pos rfl]
    rfl

theorem run_readSliceUntil (stop : UInt8) (valid : state.cursor.Valid) :
    (readSliceUntil stop).run state =
      match Bytes.offsetOf? stop state.cursor.remaining with
      | some offset => .took (state.cursor.remaining.take offset) (offset + 1) state []
      | none => .missed "read slice until char" state [] := by
  rw [readSliceUntil, run_bind_of_ok (run_remaining_of_valid valid), State.pass_zero]
  cases found : Bytes.offsetOf? stop state.cursor.remaining with
  | none => rfl
  | some offset =>
      rcases Bytes.split_of_offsetOf? found with ⟨-, -, inside⟩
      have fits : offset + 1 ≤ state.cursor.available := by
        rw [← Cursor.length_remaining]
        exact inside
      have isWord : offset + 1 < sizeLimit :=
        Nat.lt_of_le_of_lt (Nat.le_add_left _ _) (valid.position_add_lt fits)
      exact
        (run_bind_of_ok (run_addSizes isWord state) _).trans <|
        (run_bind_of_ok (run_advance_of_valid valid fits) _).trans <|
        run_firstOf (Nat.le_of_lt inside) _

theorem run_readTextUntil (stop : UInt8) (valid : state.cursor.Valid) :
    (readTextUntil stop).run state =
      match Bytes.offsetOf? stop state.cursor.remaining with
      | some offset =>
          match Bytes.toString? (state.cursor.remaining.take offset) with
          | some text => .took text (offset + 1) state []
          | none =>
              .missed "read str until char" state
                [.rolledBack "read str until char" state.cursor.position]
      | none =>
          .missed "read str until char" state
            [.rolledBack "read str until char" state.cursor.position] := by
  rw [readTextUntil, run_atomic, run_bind, run_readSliceUntil stop valid]
  cases Bytes.offsetOf? stop state.cursor.remaining with
  | none => rfl
  | some offset =>
      simp only [Outcome.took_andThen]
      cases Bytes.toString? (state.cursor.remaining.take offset) with
      | none => rfl
      | some text => rfl

/-- Nothing but the end of the text keeps the spaces from being skipped. -/
theorem run_trimSpaces (valid : state.cursor.Valid) :
    trimSpaces.run state =
      if state.cursor.available = 0 then .missed "trim left" state []
      else
        .took (state.cursor.remaining.takeWhile Bytes.isSpace).length
          (state.cursor.remaining.takeWhile Bytes.isSpace).length state [] := by
  rw [trimSpaces, run_bind_of_ok (run_cursor state)]
  by_cases empty : state.cursor.available = 0
  · rw [if_pos empty, if_pos (Cursor.isEmpty_iff _ |>.mpr empty)]
    rfl
  · rw [if_neg empty, Cursor.isEmpty_eq_false_iff.mpr empty, if_neg Bool.false_ne_true,
      run_bind_of_ok (run_takeRun valid Bytes.isSpace)]
    rfl

/-! ## Copies -/

/-- An output buffer with a copied part, the zero octet behind it and its old end. -/
def overwrite (output source : Bytes) : Bytes := source ++ 0 :: output.drop (source.length + 1)

/-- A part that leaves room for the zero octet keeps the length of the buffer. -/
theorem length_overwrite {output source : Bytes} (room : source.length < output.length) :
    (overwrite output source).length = output.length := by
  rw [overwrite, List.length_append, List.length_cons, List.length_drop]
  omega

/-- Behind the zero octet the buffer is the old one. -/
theorem getElem?_overwrite {output source : Bytes} {index : Nat} (behind : source.length < index) :
    (overwrite output source)[index]? = output[index]? := by
  obtain ⟨past, rfl⟩ := Nat.exists_eq_add_of_lt behind
  have inside : source.length + past + 1 - source.length = past + 1 := by omega
  rw [overwrite, List.getElem?_append_right (Nat.le_of_lt behind), inside, List.getElem?_cons_succ,
    List.getElem?_drop]
  congr 1
  omega

/-- Writing the zero octet behind a copied part overwrites the first octet of the old end. -/
theorem set_append_drop {output source : Bytes} (room : source.length < output.length) :
    (source ++ output.drop source.length).set source.length 0 = overwrite output source := by
  rw [List.set_append_right _ _ (Nat.le_refl _), Nat.sub_self, List.drop_eq_getElem_cons room,
    List.set_cons_zero, overwrite]

/-- Copying a part of the text and ending it with the zero octet. -/
theorem run_copy_ended {source : Bytes} (length : source.length = size)
    (room : size < state.output.length) :
    (copyToOutput size source >>= fun _ => writeOutput size 0).run state =
      { result := .ok (), state := { state with output := overwrite state.output source },
        events := [] } := by
  subst length
  have inside : source.length < (source ++ state.output.drop source.length).length := by
    rw [List.length_append, List.length_drop]
    omega
  rw [run_bind_of_ok (run_copyToOutput (Nat.le_of_lt room) rfl), run_writeOutput inside,
    set_append_drop room]

theorem run_copySlice_zero (state : State) :
    (copySlice 0).run state = .refused "zero size" state := rfl

theorem run_copySlice_small (nonzero : size ≠ 0) (small : state.output.length ≤ size) :
    (copySlice size).run state = .refused "output buffer too small" state := by
  rw [copySlice, if_neg nonzero, run_bind_of_ok (run_output state), if_pos small]
  rfl

theorem run_copySlice (nonzero : size ≠ 0) (room : size < state.output.length)
    (valid : state.cursor.Valid) :
    (copySlice size).run state =
      if size ≤ state.cursor.available then
        .took () size
          { state with output := overwrite state.output (state.cursor.remaining.take size) } []
      else .missed "read slice" state [] := by
  rw [copySlice, if_neg nonzero, run_bind_of_ok (run_output state),
    if_neg (Nat.not_le.mpr room), run_bind, run_readSlice size valid]
  by_cases fits : size ≤ state.cursor.available
  · have length : (state.cursor.remaining.take size).length = size := by
      rw [List.length_take, Cursor.length_remaining]
      exact Nat.min_eq_left fits
    have roomLater : size < (state.pass size).output.length := room
    rw [if_pos fits, if_pos ⟨fits, by omega⟩, Outcome.took_andThen, Outcome.following_nil,
      run_copy_ended length roomLater]
    rfl
  · rw [if_neg fits, if_neg (fun readable => fits readable.1)]
    rfl

theorem run_copyUntil_nil (empty : state.output = []) :
    (copyUntil stop).run state = .refused "empty output buffer" state := by
  rw [copyUntil, run_bind_of_ok (run_output state), empty]
  rfl

/-- The octets that a copy up to a stop octet searches. -/
def searched (state : State) : Bytes :=
  state.cursor.remaining.take (min state.output.length state.cursor.available)

/-- The searched octets are as many as both the buffer and the text allow. -/
theorem length_searched (state : State) :
    (searched state).length = min state.output.length state.cursor.available := by
  rw [searched, List.length_take, Cursor.length_remaining]
  omega

theorem searched_isPrefix (state : State) : searched state <+: state.cursor.remaining :=
  List.take_prefix _ _

theorem run_copyUntil (stop : UInt8) (nonempty : state.output ≠ []) (valid : state.cursor.Valid) :
    (copyUntil stop).run state =
      match Bytes.offsetOf? stop (searched state) with
      | some offset =>
          .took offset (offset + 1)
            { state with
              output := overwrite state.output (state.cursor.remaining.take offset) } []
      | none =>
          .missed "read substr until char" state
            [.stopNotFound state.cursor.position
              (min state.output.length state.cursor.available)] := by
  have notEmpty : state.output.isEmpty = false := List.isEmpty_eq_false_iff.mpr nonempty
  have searchFits :
      min state.output.length state.cursor.available ≤ state.cursor.remaining.length := by
    rw [Cursor.length_remaining]
    exact Nat.min_le_right _ _
  rw [copyUntil, run_bind_of_ok (run_output state), notEmpty, if_neg Bool.false_ne_true,
    run_bind_of_ok (run_cursor state), run_bind_of_ok (run_remaining_of_valid valid),
    State.pass_zero, run_bind_of_ok (run_firstOf searchFits state), ← searched]
  cases found : Bytes.offsetOf? stop (searched state) with
  | none => rfl
  | some offset =>
      rcases Bytes.split_of_offsetOf? found with ⟨-, -, inside⟩
      rw [length_searched] at inside
      have fits : offset + 1 ≤ state.cursor.available := by omega
      have isWord : offset + 1 < sizeLimit :=
        Nat.lt_of_le_of_lt (Nat.le_add_left _ _) (valid.position_add_lt fits)
      have sourceFits : offset ≤ state.cursor.remaining.length := by
        rw [Cursor.length_remaining]
        omega
      have length : (state.cursor.remaining.take offset).length = offset := by
        rw [List.length_take]
        exact Nat.min_eq_left sourceFits
      let copy : State :=
        { state with output := overwrite state.output (state.cursor.remaining.take offset) }
      have copied := run_copy_ended length (Nat.lt_of_lt_of_le inside (Nat.min_le_left _ _))
      have copyValid : copy.cursor.Valid := valid
      change ((firstOf offset state.cursor.remaining) >>= _).run state = _
      rw [run_bind_of_ok (run_firstOf sourceFits state), ← bind_assoc, run_bind_of_ok copied,
        run_bind_of_ok (run_addSizes isWord _), State.pass_zero]
      exact run_bind_of_ok (run_advance_of_valid copyValid fits) _

end ByteCursor.Scan
