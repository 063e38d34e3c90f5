/-!
# Bytes, their classes and searches in them

A text under a cursor is a list of octets.  This module holds the classes of octets that the
readers distinguish and the two searches that they need: for one octet and for a pattern.

Both searches report the offset of the first hit, so what precedes the offset holds no hit.
-/

namespace ByteCursor

/-- A sequence of octets. -/
abbrev Bytes := List UInt8

namespace Bytes

/-- The octets that may precede a decimal number: space, tab, line feed, form feed and
carriage return. -/
def isBlank (byte : UInt8) : Bool :=
  byte == 0x20 || byte == 0x09 || byte == 0x0a || byte == 0x0c || byte == 0x0d

/-- The space. -/
def isSpace (byte : UInt8) : Bool := byte == 0x20

/-- The digits `0` to `9`. -/
def isDigit (byte : UInt8) : Bool := 0x30 ≤ byte && byte ≤ 0x39

/-- The value of a hexadecimal digit of either case. -/
def hexDigit? (byte : UInt8) : Option UInt32 :=
  if 0x30 ≤ byte && byte ≤ 0x39 then some (byte - 0x30).toUInt32
  else if 0x41 ≤ byte && byte ≤ 0x46 then some (byte - 0x41 + 10).toUInt32
  else if 0x61 ≤ byte && byte ≤ 0x66 then some (byte - 0x61 + 10).toUInt32
  else none

/-- The hexadecimal digits of either case. -/
def isHexDigit (byte : UInt8) : Bool := (hexDigit? byte).isSome

/-- The octets of a text in UTF-8. -/
def ofString (text : String) : Bytes := text.toUTF8.toList

/-- The text that well-formed UTF-8 encodes. -/
def toString? (bytes : Bytes) : Option String := String.fromUTF8? bytes.toByteArray

/-- The offset of the first octet equal to `stop`. -/
def offsetOf? (stop : UInt8) (text : Bytes) : Option Nat := text.findIdx? (· == stop)

/-- Every run of `size` adjacent octets, in the order of their offsets. -/
def windows (size : Nat) : Bytes → List Bytes
  | [] => []
  | byte :: rest =>
      let window := (byte :: rest).take size
      if window.length = size then window :: windows size rest else []

/-- The offset of the first window equal to `pattern`. -/
def offsetOfPattern? (pattern text : Bytes) : Option Nat :=
  (windows pattern.length text).findIdx? (· == pattern)

@[simp] theorem windows_nil (size : Nat) : windows size [] = [] := rfl

/-- A text that is too short for one window has none. -/
theorem windows_of_length_lt {size : Nat} {text : Bytes} (short : text.length < size) :
    windows size text = [] := by
  cases text with
  | nil => rfl
  | cons byte rest =>
      have different : ((byte :: rest).take size).length ≠ size := by
        rw [List.length_take]; omega
      simp only [windows, different, if_false]

/-- A long enough text starts with a window, and the others are those of its tail. -/
theorem windows_cons {size : Nat} {byte : UInt8} {rest : Bytes}
    (fits : size ≤ rest.length + 1) :
    windows size (byte :: rest) = (byte :: rest).take size :: windows size rest := by
  have same : ((byte :: rest).take size).length = size := by
    rw [List.length_take, List.length_cons]; omega
  simp only [windows, same, if_true]

end Bytes

end ByteCursor
