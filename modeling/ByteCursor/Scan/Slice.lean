import ByteCursor.Scan.Bounded

/-!
# Slices and copies

A slice is a run of unread octets of a given length or up to a stop octet.  It is returned, or
copied into the output buffer of the caller and ended with a zero octet.

The stop octet is passed over and is not part of the slice.
-/

namespace ByteCursor.Scan

/-- Read the next `size` octets.  Nothing can be read at the end of the text, not even a slice
of no octets. -/
def readSlice (size : Nat) : Scan Bytes := do
  let cursor ← cursor
  if cursor.available < size || cursor.isEmpty then mismatch "read slice"
  else do
    let text ← remaining
    let slice ← firstOf size text
    advance size
    pure slice

/-- Read the octets before the next `stop` and pass over it. -/
def readSliceUntil (stop : UInt8) : Scan Bytes := do
  let text ← remaining
  match Bytes.offsetOf? stop text with
  | some offset => do
      let count ← addSizes offset 1
      advance count
      firstOf offset text
  | none => mismatch "read slice until char"

/-- Read the octets before the next `stop` as UTF-8 text and pass over `stop`. -/
def readTextUntil (stop : UInt8) : Scan String :=
  atomic "read str until char" do
    let slice ← readSliceUntil stop
    match Bytes.toString? slice with
    | some text => pure text
    | none => mismatch "read str until char"

/-- Copy the next `size` octets into the output buffer and end them with a zero octet. -/
def copySlice (size : Nat) : Scan Unit :=
  if size = 0 then refuse "zero size"
  else do
    let output ← output
    if output.length ≤ size then refuse "output buffer too small"
    else do
      let source ← readSlice size
      copyToOutput size source
      writeOutput size 0

/-- Copy the octets before the next `stop` into the output buffer, end them with a zero octet and
pass over `stop`.  At most as many octets are searched as the output buffer has.  The number of
octets before `stop` is returned. -/
def copyUntil (stop : UInt8) : Scan Nat := do
  let output ← output
  if output.isEmpty then refuse "empty output buffer"
  else do
    let cursor ← cursor
    let limit := min output.length cursor.available
    let text ← remaining
    let searched ← firstOf limit text
    match Bytes.offsetOf? stop searched with
    | some offset => do
        let source ← firstOf offset text
        copyToOutput offset source
        writeOutput offset 0
        let count ← addSizes offset 1
        advance count
        pure offset
    | none => do
        emit (.stopNotFound cursor.position limit)
        mismatch "read substr until char"

/-- Skip the spaces that come next and return their number, which may be zero.  Only the end of
the text is an error. -/
def trimSpaces : Scan Nat := do
  let cursor ← cursor
  if cursor.isEmpty then mismatch "trim left"
  else do
    let spaces ← takeRun Bytes.isSpace
    pure spaces.length

end ByteCursor.Scan
