import ByteCursor.Scan.Bounded

/-!
# Skipping patterns

A pattern is a nonempty sequence of octets.  It is skipped where the cursor stands, or together
with everything before its first occurrence.  Both scans look first and move only on a match.
-/

namespace ByteCursor.Scan

/-- Skip a pattern that the unread octets start with. -/
def skipPattern (pattern : Bytes) : Scan Unit :=
  if pattern.isEmpty then refuse "empty substring"
  else do
    let text ← remaining
    if pattern.isPrefixOf text then advance pattern.length
    else do
      let cursor ← cursor
      emit (.substringNotAtCursor cursor.position)
      mismatch "skip substr"

/-- Skip everything up to and including the first occurrence of a pattern. -/
def skipPastPattern (pattern : Bytes) : Scan Unit :=
  if pattern.isEmpty then refuse "empty substring"
  else do
    let text ← remaining
    match ← search pattern text with
    | some offset => do
        let count ← addSizes offset pattern.length
        advance count
    | none => do
        let cursor ← cursor
        emit (.substringNotFound cursor.position)
        mismatch "skip until substr"

end ByteCursor.Scan
