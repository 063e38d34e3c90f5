import ByteCursor.Proofs.Outcome
import ByteCursor.Proofs.Search
import ByteCursor.Scan.Pattern

/-!
# What the skips of patterns do

A pattern is skipped where it stands, or up to the end of its first occurrence.  An empty
pattern is refused before the text is looked at.
-/

namespace ByteCursor.Scan

variable {state : State} {pattern : Bytes}

theorem run_skipPattern_nil (state : State) :
    (skipPattern []).run state = .refused "empty substring" state := rfl

theorem run_skipPattern (nonempty : pattern ≠ []) (valid : state.cursor.Valid) :
    (skipPattern pattern).run state =
      if pattern <+: state.cursor.remaining then .took () pattern.length state []
      else .missed "skip substr" state [.substringNotAtCursor state.cursor.position] := by
  have notEmpty : pattern.isEmpty = false := List.isEmpty_eq_false_iff.mpr nonempty
  rw [skipPattern, notEmpty, if_neg Bool.false_ne_true,
    run_bind_of_ok (run_remaining_of_valid valid), State.pass_zero]
  by_cases starts : pattern <+: state.cursor.remaining
  · have fits : pattern.length ≤ state.cursor.available := by
      rw [← Cursor.length_remaining]
      exact starts.length_le
    rw [if_pos (List.isPrefixOf_iff_prefix.mpr starts), if_pos starts,
      run_advance_of_valid valid fits]
  · rw [if_neg (fun accepted => starts (List.isPrefixOf_iff_prefix.mp accepted)),
      if_neg starts]
    rfl

theorem run_skipPastPattern_nil (state : State) :
    (skipPastPattern []).run state = .refused "empty substring" state := rfl

theorem run_skipPastPattern (nonempty : pattern ≠ []) (valid : state.cursor.Valid) :
    (skipPastPattern pattern).run state =
      match Bytes.offsetOfPattern? pattern state.cursor.remaining with
      | some offset => .took () (offset + pattern.length) state []
      | none => .missed "skip until substr" state [.substringNotFound state.cursor.position] := by
  have notEmpty : pattern.isEmpty = false := List.isEmpty_eq_false_iff.mpr nonempty
  rw [skipPastPattern, notEmpty, if_neg Bool.false_ne_true,
    run_bind_of_ok (run_remaining_of_valid valid), State.pass_zero,
    run_bind_of_ok (run_search nonempty _ state)]
  cases found : Bytes.offsetOfPattern? pattern state.cursor.remaining with
  | none => rfl
  | some offset =>
      have occurs := ((Bytes.offsetOfPattern?_eq_some_iff nonempty).mp found).1
      have fits : offset + pattern.length ≤ state.cursor.available := by
        rw [← Cursor.length_remaining]
        exact occurs.le_length nonempty
      have isWord : offset + pattern.length < sizeLimit :=
        Nat.lt_of_le_of_lt (Nat.le_add_left _ _) (valid.position_add_lt fits)
      change (Scan.addSizes offset pattern.length >>= advance).run state = _
      rw [run_bind_of_ok (run_addSizes isWord state), State.pass_zero,
        run_advance_of_valid valid fits]

end ByteCursor.Scan
