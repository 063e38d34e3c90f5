import ByteCursor.Integer
import ByteCursor.Scan.Bounded

/-!
# Decimal integers

A decimal number is a run of blanks, an optional sign and a run of digits.  Only the 32-bit
reads scan text; a narrow read checks the value of the 32-bit read with the same signedness.

The magnitude of the digits is held below a ceiling that no 32-bit range reaches, so that any
number of digits fits a machine word and a number that is too large stays too large.

The digits are counted in 32 bits, only to tell whether there are any.  What becomes of the count
at the end of its range depends on how the program is built.
-/

namespace ByteCursor

/-- What becomes of a 32-bit count that goes up at the end of its range. -/
inductive Arithmetic where
  /-- It goes on at the other end, as in an optimized build. -/
  | wrapping
  /-- The program breaks off, as in a build for debugging. -/
  | checked
  deriving DecidableEq, Repr

end ByteCursor

namespace ByteCursor.Decimal

/-- A magnitude that lies outside of every 32-bit range. -/
def ceiling : UInt64 := 0x200000000

/-- The value of a decimal digit. -/
def digitValue (digit : UInt8) : UInt64 := (digit - 0x30).toUInt64

/-- Append a digit to a magnitude, up to the ceiling. -/
def appendDigit (magnitude : UInt64) (digit : UInt8) : UInt64 :=
  min (magnitude * 10 + digitValue digit) ceiling

/-- The magnitude of a run of digits, up to the ceiling. -/
def magnitude (digits : Bytes) : UInt64 := digits.foldl appendDigit 0

/-- The integer with a magnitude and a sign. -/
def withSign (isNegative : Bool) (magnitude : UInt64) : Int64 :=
  if isNegative then -magnitude.toInt64 else magnitude.toInt64

end ByteCursor.Decimal

namespace ByteCursor.Scan

/-- Read an optional sign; a minus is one only for signed numbers.  The result tells whether the
number is negative. -/
def readSign (isSigned : Bool) (what : String) : Scan Bool := do
  let cursor ← cursor
  match cursor.peek with
  | none => mismatch what
  | some byte =>
      if byte = 0x2b then do
        advance 1
        pure false
      else if byte = 0x2d && isSigned then do
        advance 1
        pure true
      else pure false

/-- Count one more in 32 bits with a sign. -/
def countUp (arithmetic : Arithmetic) (count : Int32) : Scan Int32 :=
  match arithmetic with
  | .wrapping => pure (count + 1)
  | .checked => do
      demand (count ≠ Int32.maxValue) .countOverflow
      pure (count + 1)

/-- Pass over the digits that the unread octets start with, one after the other.  Each is appended
to the magnitude and counted. -/
def appendDigits (arithmetic : Arithmetic) :
    (unread : Bytes) → UInt64 → Int32 → Scan (UInt64 × Int32)
  | [], magnitude, count => pure (magnitude, count)
  | byte :: rest, magnitude, count =>
      if Bytes.isDigit byte then do
        let count ← countUp arithmetic count
        advance 1
        appendDigits arithmetic rest (Decimal.appendDigit magnitude byte) count
      else pure (magnitude, count)

/-- Read the magnitude of digits, which must not be counted as none. -/
def readDigits (what : String) (arithmetic : Arithmetic) : Scan UInt64 := do
  let unread ← remaining
  let (magnitude, count) ← appendDigits arithmetic unread 0 0
  if count = 0 then mismatch what else pure magnitude

/-- Read blanks, an optional sign and digits. -/
def readNumber (isSigned : Bool) (what : String) (arithmetic : Arithmetic := .wrapping) :
    Scan Int64 := do
  let _ ← takeRun Bytes.isBlank
  let isNegative ← readSign isSigned what
  let magnitude ← readDigits what arithmetic
  pure (Decimal.withSign isNegative magnitude)

/-- Accept a value of the type. -/
def checkRange (type : IntType) (what : String) (value : Int) : Scan Int :=
  if type.Holds value then pure value else mismatch what

/-- Read a decimal integer of 32 bits. -/
def readDecimalWord (type : IntType) (arithmetic : Arithmetic := .wrapping) : Scan Int :=
  atomic type.name do
    let number ← readNumber type.isSigned type.name arithmetic
    checkRange type type.name number.toInt

/-- Bring a 32-bit value into a narrow type.  A signed type drops the high bits if narrowing is
permissive; otherwise the value must be one of the type. -/
def narrowDecimal (type : IntType) (value : Int) : Scan Int := do
  let cursor ← cursor
  if type.isSigned && cursor.options.narrowing = .permissive then pure (type.truncate value)
  else checkRange type type.name value

/-- Read a decimal integer. -/
def readDecimal (type : IntType) (arithmetic : Arithmetic := .wrapping) : Scan Int :=
  if type = type.widened then readDecimalWord type arithmetic
  else
    atomic type.name do
      let value ← readDecimalWord type.widened arithmetic
      narrowDecimal type value

end ByteCursor.Scan
