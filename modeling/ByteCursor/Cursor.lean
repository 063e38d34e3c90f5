import ByteCursor.Bytes
import ByteCursor.Error
import ByteCursor.Event
import ByteCursor.Options

/-!
# Cursors

A cursor is a position in the octets of a zero-terminated buffer.  Opening one checks the zero
octet once and keeps the octets before it, so nothing later can reach the zero octet or what
follows it.

The unread octets are `remaining`; every other question about what lies ahead is answered by
them.
-/

namespace ByteCursor

/-- A position in the octets before the terminating zero. -/
structure Cursor where
  /-- The octets before the terminating zero. -/
  bytes : Bytes
  /-- How many octets have been read. -/
  position : Nat
  /-- The switches of the integer reads. -/
  options : Options
  deriving DecidableEq, Repr

/-- Why a buffer cannot be opened. -/
inductive Refusal where
  | emptyBuffer
  | zeroLength
  | sentinelMissing (length bufferLength : Nat)
  deriving DecidableEq, Repr

namespace Refusal

/-- The error that a refusal is reported as. -/
def error : Refusal → ReadError
  | emptyBuffer => .invalidArgument "empty buffer"
  | zeroLength => .invalidArgument "zero length"
  | sentinelMissing length _ => .notTerminated length

/-- The event that a refusal leaves. -/
def event : Refusal → Event
  | emptyBuffer => .emptyBuffer
  | zeroLength => .zeroLength
  | sentinelMissing length bufferLength => .sentinelMissing length bufferLength

end Refusal

namespace Cursor

/-- Open the first `length` octets of a buffer, which a zero octet must follow. -/
def ofBuffer (buffer : Bytes) (length : Nat) (options : Options) : Except Refusal Cursor :=
  if buffer.isEmpty then .error .emptyBuffer
  else if length = 0 then .error .zeroLength
  else if buffer[length]? = some 0 then
    .ok { bytes := buffer.take length, position := 0, options := options }
  else .error (.sentinelMissing length buffer.length)

/-- Open a text together with the zero octet that ends it, with the default options. -/
def ofText (text : Bytes) : Except Refusal Cursor := ofBuffer (text ++ [0]) text.length {}

/-- The number of octets before the terminating zero. -/
def length (cursor : Cursor) : Nat := cursor.bytes.length

/-- The number of unread octets. -/
def available (cursor : Cursor) : Nat := cursor.length - cursor.position

/-- All octets have been read. -/
def isEmpty (cursor : Cursor) : Bool := cursor.length ≤ cursor.position

/-- The unread octets. -/
def remaining (cursor : Cursor) : Bytes := cursor.bytes.drop cursor.position

/-- The next octet. -/
def peek (cursor : Cursor) : Option UInt8 := cursor.bytes[cursor.position]?

/-- The same cursor at another position. -/
def seek (cursor : Cursor) (position : Nat) : Cursor := { cursor with position := position }

@[simp] theorem length_remaining (cursor : Cursor) :
    cursor.remaining.length = cursor.available := by
  simp [remaining, available, length]

theorem peek_eq_head? (cursor : Cursor) : cursor.peek = cursor.remaining.head? := by
  simp [peek, remaining, List.head?_drop]

@[simp] theorem isEmpty_iff (cursor : Cursor) : cursor.isEmpty = true ↔ cursor.available = 0 := by
  simp only [isEmpty, available, decide_eq_true_eq]
  omega

@[simp] theorem bytes_seek (cursor : Cursor) (position : Nat) :
    (cursor.seek position).bytes = cursor.bytes := rfl

@[simp] theorem position_seek (cursor : Cursor) (position : Nat) :
    (cursor.seek position).position = position := rfl

@[simp] theorem options_seek (cursor : Cursor) (position : Nat) :
    (cursor.seek position).options = cursor.options := rfl

@[simp] theorem seek_seek (cursor : Cursor) (first second : Nat) :
    (cursor.seek first).seek second = cursor.seek second := rfl

@[simp] theorem seek_position (cursor : Cursor) : cursor.seek cursor.position = cursor := rfl

end Cursor

end ByteCursor
