import ByteCursor.ByteOrder
import ByteCursor.Scan.Bounded

/-!
# The raw view of a cursor

The raw view treats the unread octets as a binary stream: it passes over, copies and decodes a
fixed number of octets and knows no errors.  Its callers promise that enough octets are left, and
asking for more is a breach that takes nothing.
-/

namespace ByteCursor

/-- The widths of binary integers. -/
inductive BinaryWidth where
  | one
  | two
  | four
  | eight
  deriving DecidableEq, Repr

/-- The number of octets of a width. -/
def BinaryWidth.octets : BinaryWidth → Nat
  | one => 1
  | two => 2
  | four => 4
  | eight => 8

/-- How a binary integer is laid out. -/
structure BinaryFormat where
  /-- How many octets it has. -/
  width : BinaryWidth
  /-- Whether it is in two's complement. -/
  isSigned : Bool
  /-- Which octet comes first. -/
  order : ByteOrder
  deriving DecidableEq, Repr

namespace BinaryFormat

/-- Read the octets of an integer. -/
def decode (format : BinaryFormat) (bytes : Bytes) : Int :=
  format.order.decode format.isSigned bytes

/-- Write the octets of an integer. -/
def encode (format : BinaryFormat) (value : Int) : Bytes :=
  format.order.encode format.width.octets value

@[simp] theorem length_encode (format : BinaryFormat) (value : Int) :
    (format.encode value).length = format.width.octets := by
  simp [encode]

end BinaryFormat

namespace Scan

/-- Take the next octets of the stream. -/
def takeRaw (count : Nat) : Scan Bytes := do
  let cursor ← cursor
  demand (count ≤ cursor.available) (.shortRead cursor.available count)
  let text ← remaining
  let taken ← firstOf count text
  advance count
  pure taken

/-- Fill the output buffer with the next octets of the stream. -/
def fillOutput : Scan Unit := do
  let output ← output
  let taken ← takeRaw output.length
  copyToOutput output.length taken

/-- Take a binary integer from the stream. -/
def takeInteger (format : BinaryFormat) : Scan Int := do
  let taken ← takeRaw format.width.octets
  pure (format.decode taken)

end Scan

end ByteCursor
