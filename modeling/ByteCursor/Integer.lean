import ByteCursor.ByteOrder

/-!
# Integers that are read from text

The text reads deliver integers of 8, 16 or 32 bits with or without a sign.  A type is its range
of values; `truncate` keeps the low bits of any integer and reads them as a value of the type.
-/

namespace ByteCursor

/-- A type of integers that a text read delivers: without a sign (`u`) or in two's complement
(`i`), with its number of bits. -/
inductive IntType where
  | u32
  | u16
  | u8
  | i32
  | i16
  | i8
  deriving DecidableEq, Repr

namespace IntType

/-- The number of octets of a value. -/
def octets : IntType → Nat
  | u32 | i32 => 4
  | u16 | i16 => 2
  | u8 | i8 => 1

/-- Whether the values have a sign. -/
def isSigned : IntType → Bool
  | u32 | u16 | u8 => false
  | i32 | i16 | i8 => true

/-- The name of the type in messages. -/
def name : IntType → String
  | u32 => "u32"
  | u16 => "u16"
  | u8 => "u8"
  | i32 => "i32"
  | i16 => "i16"
  | i8 => "i8"

/-- The 32-bit type with or without a sign like this one. -/
def widened (type : IntType) : IntType := if type.isSigned then i32 else u32

/-- How many values the type has. -/
def size (type : IntType) : Nat := ByteOrder.capacity type.octets

/-- The least value of the type. -/
def least (type : IntType) : Int := if type.isSigned then -(type.size / 2 : Nat) else 0

/-- The greatest value of the type. -/
def greatest (type : IntType) : Int := type.least + type.size - 1

/-- The integer is a value of the type. -/
def Holds (type : IntType) (value : Int) : Prop := type.least ≤ value ∧ value ≤ type.greatest

instance (type : IntType) (value : Int) : Decidable (type.Holds value) :=
  inferInstanceAs (Decidable (_ ∧ _))

/-- The value of the type with the same low bits as the integer. -/
def truncate (type : IntType) (value : Int) : Int :=
  if type.isSigned then value.bmod type.size else value % type.size

/-- The value of the type whose octets are those of the given one in the other order. -/
def reverseOctets (type : IntType) (value : Int) : Int :=
  ByteOrder.little.decode type.isSigned (ByteOrder.big.encode type.octets value)

/-- What is left after dropping high bits is a value of the type. -/
theorem holds_truncate (type : IntType) (value : Int) : type.Holds (type.truncate value) := by
  cases type <;>
    simp [Holds, truncate, least, greatest, isSigned, size, octets, ByteOrder.capacity,
      Int.bmod_def] <;> grind

/-- Dropping high bits changes no value of the type. -/
theorem truncate_of_holds {type : IntType} {value : Int} (holds : type.Holds value) :
    type.truncate value = value := by
  cases type <;>
    simp [Holds, truncate, least, greatest, isSigned, size, octets, ByteOrder.capacity,
      Int.bmod_def] at holds ⊢ <;>
    grind

end IntType

end ByteCursor
