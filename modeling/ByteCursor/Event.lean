/-!
# Trace events

Calls that fail and buffers that are refused leave events for an observer.  An event has a
level, a message and named fields, all of which follow from its constructor.
-/

namespace ByteCursor

/-- How important an event is. -/
inductive Level where
  /-- Steps of the work, of interest when following one text. -/
  | trace
  /-- Decisions of interest when looking for a fault. -/
  | debug
  deriving DecidableEq, Repr

/-- A value that an event carries. -/
inductive FieldValue where
  | number (value : Nat)
  | text (value : String)
  deriving DecidableEq, Repr

/-- Something that an observer may follow. -/
inductive Event where
  /-- A failed call went back to the offset where it began. -/
  | rolledBack (what : String) (offset : Nat)
  /-- The unread octets do not start with the pattern. -/
  | substringNotAtCursor (offset : Nat)
  /-- The unread octets do not hold the pattern. -/
  | substringNotFound (offset : Nat)
  /-- The stop octet is not among the octets that may be searched. -/
  | stopNotFound (offset limit : Nat)
  /-- A buffer without octets was refused. -/
  | emptyBuffer
  /-- A length of zero was refused. -/
  | zeroLength
  /-- A buffer without a zero octet at its declared length was refused. -/
  | sentinelMissing (length bufferLength : Nat)
  deriving DecidableEq, Repr

namespace Event

/-- The level of an event. -/
def level : Event → Level
  | rolledBack _ _ | substringNotAtCursor _ | substringNotFound _ | stopNotFound _ _ => .trace
  | emptyBuffer | zeroLength | sentinelMissing _ _ => .debug

/-- The message of an event. -/
def message : Event → String
  | rolledBack _ _ => "rolled back"
  | substringNotAtCursor _ => "substring not at cursor"
  | substringNotFound _ => "substring not found"
  | stopNotFound _ _ => "stop char not found"
  | emptyBuffer => "refusing empty buffer"
  | zeroLength => "refusing zero length"
  | sentinelMissing _ _ => "sentinel missing"

/-- The named values of an event. -/
def fields : Event → List (String × FieldValue)
  | rolledBack what offset => [("what", .text what), ("offset", .number offset)]
  | substringNotAtCursor offset => [("offset", .number offset)]
  | substringNotFound offset => [("offset", .number offset)]
  | stopNotFound offset limit => [("offset", .number offset), ("limit", .number limit)]
  | emptyBuffer | zeroLength => []
  | sentinelMissing length bufferLength =>
      [("length", .number length), ("buffer_len", .number bufferLength)]

end Event

end ByteCursor
