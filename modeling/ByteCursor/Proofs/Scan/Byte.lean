import ByteCursor.Proofs.Outcome
import ByteCursor.Proofs.Search
import ByteCursor.Scan.Byte

/-!
# What the reads of single octets do

Each read depends on the next unread octet only, and the skip past an octet on the first such
octet among the unread ones.
-/

namespace ByteCursor.Scan

variable {state : State} {byte : UInt8} {rest : Bytes}

private theorem peek_of_cons (unread : state.cursor.remaining = byte :: rest) :
    state.cursor.peek = some byte := by
  rw [Cursor.peek_eq_head?, unread, List.head?_cons]

private theorem peek_of_nil (unread : state.cursor.remaining = []) :
    state.cursor.peek = none := by
  rw [Cursor.peek_eq_head?, unread, List.head?_nil]

theorem run_readByte_cons (valid : state.cursor.Valid)
    (unread : state.cursor.remaining = byte :: rest) :
    readByte.run state = .took byte 1 state [] := by
  have fits : 1 ≤ state.cursor.available := by
    rw [← Cursor.length_remaining, unread, List.length_cons]
    omega
  rw [readByte, run_bind_of_ok (run_cursor state), peek_of_cons unread]
  exact run_bind_of_ok (run_advance_of_valid valid fits) _

theorem run_readByte_nil (unread : state.cursor.remaining = []) :
    readByte.run state = .missed "byte" state [] := by
  rw [readByte, run_bind_of_ok (run_cursor state), peek_of_nil unread]
  rfl

theorem run_readChar_cons (valid : state.cursor.Valid)
    (unread : state.cursor.remaining = byte :: rest) :
    readChar.run state = .took (Char.ofNat byte.toNat) 1 state [] := by
  rw [readChar, run_bind_of_ok (run_readByte_cons valid unread)]
  rfl

theorem run_readChar_nil (unread : state.cursor.remaining = []) :
    readChar.run state = .missed "byte" state [] := by
  rw [readChar, run_bind, run_readByte_nil unread]
  rfl

/-- A read that looks at the next octet misses at the end of the text. -/
theorem run_atomic_readByte_nil {α : Type} (what : String) (next : UInt8 → Scan α)
    (unread : state.cursor.remaining = []) :
    (atomic what (readByte >>= next)).run state =
      .missed what state [.rolledBack what state.cursor.position] := by
  rw [run_atomic, run_bind, run_readByte_nil unread, Outcome.missed_andThen,
    Outcome.missed_rollBack, List.nil_append]

/-- The octet that a truth value is written as. -/
def truthByte (value : Bool) : UInt8 := if value then 1 else 0

theorem run_readBool_cons (valid : state.cursor.Valid) (value : Bool)
    (unread : state.cursor.remaining = truthByte value :: rest) :
    readBool.run state = .took value 1 state [] := by
  rw [readBool, run_atomic, run_bind_of_ok (run_readByte_cons valid unread)]
  cases value <;> rfl

theorem run_readBool_other (valid : state.cursor.Valid)
    (unread : state.cursor.remaining = byte :: rest) (other : ∀ value, byte ≠ truthByte value) :
    readBool.run state = .missed "bool" state [.rolledBack "bool" state.cursor.position] := by
  have notZero : byte ≠ 0 := other false
  have notOne : byte ≠ 1 := other true
  rw [readBool, run_atomic, run_bind_of_ok (run_readByte_cons valid unread), if_neg notZero,
    if_neg notOne, run_mismatch_eq_missed, Outcome.missed_pass_rollBack, List.nil_append]

theorem run_skipByte_same (valid : state.cursor.Valid)
    (unread : state.cursor.remaining = byte :: rest) :
    (skipByte byte).run state = .took () 1 state [] := by
  rw [skipByte, run_atomic, run_bind_of_ok (run_readByte_cons valid unread), if_pos rfl]
  rfl

theorem run_skipByte_other (valid : state.cursor.Valid) {expected : UInt8}
    (unread : state.cursor.remaining = byte :: rest) (other : byte ≠ expected) :
    (skipByte expected).run state =
      .missed "skip char" state [.rolledBack "skip char" state.cursor.position] := by
  rw [skipByte, run_atomic, run_bind_of_ok (run_readByte_cons valid unread), if_neg other,
    run_mismatch_eq_missed, Outcome.missed_pass_rollBack, List.nil_append]

/-- Reading on past an octet takes all octets up to it, or all octets that there are. -/
theorem run_readPast (stop : UInt8) (valid : state.cursor.Valid) :
    (readPast stop state.cursor.available).run state =
      match Bytes.offsetOf? stop state.cursor.remaining with
      | some offset => .took () (offset + 1) state []
      | none => .missed "byte" (state.pass state.cursor.available) [] := by
  rw [← Cursor.length_remaining]
  generalize unread : state.cursor.remaining = text
  -- The unread octets are the only thing that the loop looks at, so the induction is on them.
  induction text generalizing state with
  | nil => rfl
  | cons byte rest ih =>
      have fits : 1 ≤ state.cursor.available := by
        rw [← Cursor.length_remaining, unread, List.length_cons]
        omega
      have later : (state.pass 1).cursor.remaining = rest := by
        rw [State.cursor_pass, Cursor.remaining_pass, unread, List.drop_one, List.tail_cons]
      rw [List.length_cons, readPast, run_bind_of_ok (run_readByte_cons valid unread),
        Bytes.offsetOf?_cons]
      by_cases hit : byte = stop
      · rw [if_pos hit, if_pos hit]
        rfl
      · rw [if_neg hit, if_neg hit, ih (valid.pass fits) later]
        cases Bytes.offsetOf? stop rest with
        | none => simp [Nat.add_comm]
        | some offset => simp [Nat.add_comm]

theorem run_skipPastByte (stop : UInt8) (valid : state.cursor.Valid) :
    (skipPastByte stop).run state =
      match Bytes.offsetOf? stop state.cursor.remaining with
      | some offset => .took () (offset + 1) state []
      | none =>
          .missed "skip until char" state
            [.rolledBack "skip until char" state.cursor.position] := by
  rw [skipPastByte, run_atomic, run_bind_of_ok (run_cursor state), run_readPast stop valid]
  cases Bytes.offsetOf? stop state.cursor.remaining with
  | none => rfl
  | some offset => rfl

end ByteCursor.Scan
