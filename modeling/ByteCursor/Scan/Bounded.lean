import ByteCursor.Scan

/-!
# Scans within bounds

The scans that move the cursor, take a part of the unread octets or write to the output buffer
demand that what they touch exists.  A demand that is not met is a breach.

A scan built from these and free of breaches touches nothing out of bounds.
-/

namespace ByteCursor.Scan

/-- The sum of two sizes, which must be a machine word. -/
def addSizes (left right : Nat) : Scan Nat := do
  demand (left + right < sizeLimit) (.sizeOverflow left right)
  pure (left + right)

/-- Pass over so many unread octets. -/
def advance (count : Nat) : Scan Unit := do
  let cursor ← cursor
  demand (count ≤ cursor.available) (.advancePastEnd count cursor.available)
  let target ← addSizes cursor.position count
  seek target

/-- The unread octets. -/
def remaining : Scan Bytes := do
  let cursor ← cursor
  demand (cursor.position ≤ cursor.length) (.rangePastEnd cursor.position cursor.length)
  pure cursor.remaining

/-- The first `count` octets of a sequence. -/
def firstOf (count : Nat) (bytes : Bytes) : Scan Bytes := do
  demand (count ≤ bytes.length) (.rangePastEnd count bytes.length)
  pure (bytes.take count)

/-- The offset of the first window of a text that equals the pattern. -/
def search (pattern text : Bytes) : Scan (Option Nat) := do
  demand (!pattern.isEmpty) .emptyWindow
  pure (Bytes.offsetOfPattern? pattern text)

/-- Copy a source into the first `count` octets of the output buffer. -/
def copyToOutput (count : Nat) (source : Bytes) : Scan Unit := do
  let output ← output
  demand (count ≤ output.length) (.rangePastEnd count output.length)
  demand (source.length = count) (.copyLength count source.length)
  setOutput (source ++ output.drop count)

/-- Write one octet of the output buffer. -/
def writeOutput (index : Nat) (byte : UInt8) : Scan Unit := do
  let output ← output
  demand (index < output.length) (.indexPastEnd index output.length)
  setOutput (output.set index byte)

/-- Pass over the longest run of unread octets of one class. -/
def takeRun (inClass : UInt8 → Bool) : Scan Bytes := do
  let text ← remaining
  let run := text.takeWhile inClass
  advance run.length
  pure run

/-- Within the unread octets, passing over some of them moves the position by as much. -/
theorem run_advance {count : Nat} {state : State} (fits : count ≤ state.cursor.available)
    (isWord : state.cursor.position + count < sizeLimit) :
    (advance count).run state =
      { result := .ok ()
        state := { state with cursor := state.cursor.seek (state.cursor.position + count) }
        events := [] } := by
  simp [advance, addSizes, run_bind, fits, isWord]

/-- A position in the octets has unread octets after it. -/
theorem run_remaining {state : State} (inside : state.cursor.position ≤ state.cursor.length) :
    remaining.run state =
      { result := .ok state.cursor.remaining, state := state, events := [] } := by
  simp [remaining, run_bind, inside]

theorem run_firstOf {count : Nat} {bytes : Bytes} (fits : count ≤ bytes.length) (state : State) :
    (firstOf count bytes).run state =
      { result := .ok (bytes.take count), state := state, events := [] } := by
  simp [firstOf, fits]

theorem run_search {pattern : Bytes} (nonempty : pattern ≠ []) (text : Bytes) (state : State) :
    (search pattern text).run state =
      { result := .ok (Bytes.offsetOfPattern? pattern text), state := state, events := [] } := by
  have demanded : (!pattern.isEmpty) = true := by simp [nonempty]
  simp only [search, demanded, demand_true, pure_bind, run_pure]

theorem run_copyToOutput {count : Nat} {source : Bytes} {state : State}
    (fits : count ≤ state.output.length) (same : source.length = count) :
    (copyToOutput count source).run state =
      { result := .ok (), state := { state with output := source ++ state.output.drop count },
        events := [] } := by
  simp [copyToOutput, run_bind, fits, same]

theorem run_writeOutput {index : Nat} {byte : UInt8} {state : State}
    (inside : index < state.output.length) :
    (writeOutput index byte).run state =
      { result := .ok (), state := { state with output := state.output.set index byte },
        events := [] } := by
  simp [writeOutput, run_bind, inside]

end ByteCursor.Scan
