import ByteCursor.Scan.Bounded

/-!
# Reading and skipping single octets

The scans of this module look at one octet at a time.  Skipping past an octet reads on until the
octet was read, and goes back if the text ends before.
-/

namespace ByteCursor.Scan

/-- Read the next octet. -/
def readByte : Scan UInt8 := do
  let cursor ← cursor
  match cursor.peek with
  | some byte => do
      advance 1
      pure byte
  | none => mismatch "byte"

/-- Read the next octet as the character with that code point. -/
def readChar : Scan Char := do
  let byte ← readByte
  pure (Char.ofNat byte.toNat)

/-- Read one octet `0` or `1` as a truth value. -/
def readBool : Scan Bool :=
  atomic "bool" do
    let byte ← readByte
    if byte = 0 then pure false
    else if byte = 1 then pure true
    else mismatch "bool"

/-- Skip the next octet if it is the expected one. -/
def skipByte (expected : UInt8) : Scan Unit :=
  atomic "skip char" do
    let byte ← readByte
    if byte = expected then pure () else mismatch "skip char"

/-- Read octets until `stop` was read, at most `limit` of them. -/
def readPast (stop : UInt8) : (limit : Nat) → Scan Unit
  | 0 => mismatch "byte"
  | limit + 1 => do
      let byte ← readByte
      if byte = stop then pure () else readPast stop limit

/-- Skip everything up to and including the next `stop`. -/
def skipPastByte (stop : UInt8) : Scan Unit :=
  atomic "skip until char" do
    let cursor ← cursor
    readPast stop cursor.available

end ByteCursor.Scan
