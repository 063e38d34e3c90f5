import ByteCursor.Integer
import ByteCursor.Scan.Pattern
import ByteCursor.Scan.Slice

/-!
# Hexadecimal integers

Every hexadecimal read goes through a word of up to eight digits, the most significant first.
Narrow types check its range, signed types reinterpret its bits, and the little byte order
reverses the octets of the value in the big one.
-/

namespace ByteCursor.Hexadecimal

/-- How many digits a word has at most. -/
def maxDigits : Nat := 8

/-- The octets `0x` that may stand before a number. -/
def mark : Bytes := [0x30, 0x78]

/-- Append a digit to a word. -/
def appendDigit (word digit : UInt32) : UInt32 := (word <<< 4) ||| digit

/-- The word of a run of digits. -/
def word (digits : Bytes) : UInt32 :=
  (digits.filterMap Bytes.hexDigit?).foldl appendDigit 0

end ByteCursor.Hexadecimal

namespace ByteCursor.Scan

/-- Skip what the options allow before a hexadecimal number: spaces, then one `0x`. -/
def skipHexLead : Scan Unit := do
  let cursor ← cursor
  if cursor.options.hexTrimSpaces then do
    let _ ← trimSpaces
  if cursor.options.hexPrefix then attempt (skipPattern Hexadecimal.mark)

/-- Pass over the longest run of hexadecimal digits that a word can hold. -/
def takeHexDigits : Scan Bytes := do
  let text ← remaining
  let digits := (text.take Hexadecimal.maxDigits).takeWhile Bytes.isHexDigit
  advance digits.length
  pure digits

/-- Read up to eight hexadecimal digits, the most significant first. -/
def readHexWord : Scan UInt32 :=
  atomic "u32 be" do
    let cursor ← cursor
    if cursor.isEmpty then mismatch "u32 be"
    else do
      skipHexLead
      let digits ← takeHexDigits
      if digits.isEmpty then mismatch "u32 be" else pure (Hexadecimal.word digits)

/-- Bring a word into a type.  The bits beyond the width must be zero, unless the type is signed
and narrowing is permissive. -/
def narrowHex (type : IntType) (what : String) (word : UInt32) : Scan Int := do
  let cursor ← cursor
  if word.toNat < type.size || (type.isSigned && cursor.options.narrowing = .permissive) then
    pure (type.truncate word.toNat)
  else mismatch what

/-- Read a hexadecimal integer with the most significant digit first. -/
def readHexBig (type : IntType) : Scan Int :=
  match type with
  | .u32 => do
      let word ← readHexWord
      pure word.toNat
  | _ =>
      let what := type.name ++ " be"
      atomic what do
        let word ← readHexWord
        narrowHex type what word

/-- Read a hexadecimal integer whose octets stand in the given order. -/
def readHex (type : IntType) : ByteOrder → Scan Int
  | .big => readHexBig type
  | .little => do
      let value ← atomic (type.name ++ " le") (readHexBig type)
      pure (type.reverseOctets value)

end ByteCursor.Scan
