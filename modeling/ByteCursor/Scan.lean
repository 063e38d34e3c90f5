import ByteCursor.ByteOrder
import ByteCursor.Cursor

/-!
# Scans

A scan is a computation that works on a cursor and on the output buffer of its caller.  It ends
with a value or a failure, and in both cases with a state and with the events it left.

A failure is an error, which callers handle, or a breach of the contract of a primitive.  Rolling
back is `atomic`: a failing body is undone in its position and reported under one name at the
offset where it began.
-/

namespace ByteCursor

/-- A contract that a caller of a primitive broke.  A breach is a fault of the program that
makes the call and not of the text under the cursor. -/
inductive Breach where
  /-- More octets were passed over than are unread. -/
  | advancePastEnd (count available : Nat)
  /-- More octets were taken than are unread. -/
  | shortRead (available needed : Nat)
  /-- A part of a sequence was taken that ends after the sequence. -/
  | rangePastEnd (stop length : Nat)
  /-- An element was written that lies after the end of a sequence. -/
  | indexPastEnd (index length : Nat)
  /-- Octets were copied into a range of another length. -/
  | copyLength (target source : Nat)
  /-- Windows of no octets were asked for. -/
  | emptyWindow
  /-- The sum of two sizes does not fit a 64-bit word. -/
  | sizeOverflow (left right : Nat)
  /-- A count has reached the greatest 32-bit integer and was to go up. -/
  | countOverflow
  deriving DecidableEq, Repr

namespace Breach

/-- The text shown for a breach. -/
def message : Breach → String
  | advancePastEnd count available =>
      "cannot advance past end of cursor (" ++ toString count ++ " > " ++ toString available ++ ")"
  | shortRead available needed =>
      "advance out of bounds: the len is " ++ toString available ++ " but advancing by " ++
        toString needed
  | rangePastEnd stop length =>
      "range end " ++ toString stop ++ " out of range for length " ++ toString length
  | indexPastEnd index length =>
      "index " ++ toString index ++ " out of range for length " ++ toString length
  | copyLength target source =>
      "copy of " ++ toString source ++ " octets into " ++ toString target
  | emptyWindow => "window size must be non-zero"
  | sizeOverflow left right =>
      "sum of " ++ toString left ++ " and " ++ toString right ++ " overflows"
  | countOverflow => "attempt to add with overflow"

end Breach

/-- How a scan can fail. -/
inductive Failure where
  /-- The caller is told an error. -/
  | error (error : ReadError)
  /-- A contract was broken. -/
  | breach (breach : Breach)
  deriving DecidableEq, Repr

namespace Failure

/-- The text shown for a failure. -/
def message : Failure → String
  | .error cause => cause.message
  | .breach cause => cause.message

end Failure

/-- The smallest size that a machine word cannot hold. -/
def sizeLimit : Nat := ByteOrder.capacity 8

namespace Scan

/-- What a scan works on: a cursor, and the output buffer of the caller. -/
structure State where
  cursor : Cursor
  output : Bytes
  deriving DecidableEq, Repr

/-- How a scan ended. -/
structure Outcome (α : Type) where
  /-- The value or the failure. -/
  result : Except Failure α
  /-- The state at the end, also after a failure. -/
  state : State
  /-- The events that were left, in their order. -/
  events : List Event

end Scan

/-- A computation on a cursor and an output buffer. -/
def Scan (α : Type) : Type := Scan.State → Scan.Outcome α

namespace Scan

variable {α β : Type}

/-- Run a scan. -/
def run (scan : Scan α) (state : State) : Outcome α := scan state

theorem ext {first second : Scan α} (same : ∀ state, first.run state = second.run state) :
    first = second := funext same

/-- Continue an outcome: a success goes on from its state, a failure stays. -/
def Outcome.andThen (outcome : Outcome α) (next : α → Scan β) : Outcome β :=
  match outcome.result with
  | .ok value =>
      let later := (next value).run outcome.state
      { later with events := outcome.events ++ later.events }
  | .error failure => { outcome with result := .error failure }

/-- Undo an outcome that is an error: go back to the position `start`, report a parse error as
`what` at `start`, and tell of the rollback.  Every other outcome stays. -/
def Outcome.rollBack (what : String) (start : Nat) (outcome : Outcome α) : Outcome α :=
  match outcome.result with
  | .error (.error error) =>
      { result := .error (.error (error.relabel what start))
        state := { outcome.state with cursor := outcome.state.cursor.seek start }
        events := outcome.events ++ [.rolledBack what start] }
  | _ => outcome

/-- Forget the value or the error of an outcome. -/
def Outcome.forgive (outcome : Outcome α) : Outcome Unit :=
  match outcome.result with
  | .error (.breach breach) => { outcome with result := .error (.breach breach) }
  | _ => { outcome with result := .ok () }

instance : Monad Scan where
  pure value := fun state => { result := .ok value, state := state, events := [] }
  bind scan next := fun state => (scan.run state).andThen next

@[simp] theorem run_pure (value : α) (state : State) :
    (pure value : Scan α).run state = { result := .ok value, state := state, events := [] } := rfl

theorem run_bind (scan : Scan α) (next : α → Scan β) (state : State) :
    (scan >>= next).run state = (scan.run state).andThen next := rfl

@[simp] theorem andThen_ok (value : α) (state : State) (events : List Event) (next : α → Scan β) :
    Outcome.andThen { result := .ok value, state := state, events := events } next =
      { (next value).run state with events := events ++ ((next value).run state).events } := rfl

@[simp] theorem andThen_error (failure : Failure) (state : State) (events : List Event)
    (next : α → Scan β) :
    Outcome.andThen { result := .error failure, state := state, events := events } next =
      { result := .error failure, state := state, events := events } := rfl

@[simp] theorem rollBack_ok (what : String) (start : Nat) (value : α) (state : State)
    (events : List Event) :
    Outcome.rollBack what start { result := .ok value, state := state, events := events } =
      { result := .ok value, state := state, events := events } := rfl

@[simp] theorem rollBack_error (what : String) (start : Nat) (error : ReadError) (state : State)
    (events : List Event) :
    Outcome.rollBack (α := α) what start
        { result := .error (.error error), state := state, events := events } =
      { result := .error (.error (error.relabel what start))
        state := { state with cursor := state.cursor.seek start }
        events := events ++ [.rolledBack what start] } := rfl

@[simp] theorem rollBack_breach (what : String) (start : Nat) (breach : Breach) (state : State)
    (events : List Event) :
    Outcome.rollBack (α := α) what start
        { result := .error (.breach breach), state := state, events := events } =
      { result := .error (.breach breach), state := state, events := events } := rfl

@[simp] theorem forgive_ok (value : α) (state : State) (events : List Event) :
    Outcome.forgive { result := .ok value, state := state, events := events } =
      { result := .ok (), state := state, events := events } := rfl

@[simp] theorem forgive_error (error : ReadError) (state : State) (events : List Event) :
    Outcome.forgive (α := α)
        { result := .error (.error error), state := state, events := events } =
      { result := .ok (), state := state, events := events } := rfl

@[simp] theorem forgive_breach (breach : Breach) (state : State) (events : List Event) :
    Outcome.forgive (α := α)
        { result := .error (.breach breach), state := state, events := events } =
      { result := .error (.breach breach), state := state, events := events } := rfl

instance : LawfulMonad Scan := LawfulMonad.mk'
  Scan
  (fun scan => by
    apply Scan.ext
    intro state
    change (scan.run state).andThen (fun value => pure value) = scan.run state
    rcases scan.run state with ⟨result, later, events⟩
    cases result <;> simp)
  (fun value next => by
    apply Scan.ext
    intro state
    simp [run_bind])
  (fun scan next last => by
    apply Scan.ext
    intro state
    simp only [run_bind]
    rcases scan.run state with ⟨result, later, events⟩
    cases result with
    | error failure => simp
    | ok value =>
        simp only [andThen_ok, run_bind]
        rcases (next value).run later with ⟨result, later, more⟩
        cases result <;> simp)

/-! ## Primitive scans -/

/-- The cursor. -/
def cursor : Scan Cursor :=
  fun state => { result := .ok state.cursor, state := state, events := [] }

/-- The output buffer of the caller. -/
def output : Scan Bytes :=
  fun state => { result := .ok state.output, state := state, events := [] }

/-- Move the cursor to a position. -/
def seek (position : Nat) : Scan Unit := fun state =>
  { result := .ok (), state := { state with cursor := state.cursor.seek position }, events := [] }

/-- Replace the output buffer of the caller. -/
def setOutput (output : Bytes) : Scan Unit :=
  fun state => { result := .ok (), state := { state with output := output }, events := [] }

/-- Leave an event. -/
def emit (event : Event) : Scan Unit :=
  fun state => { result := .ok (), state := state, events := [event] }

/-- End with a failure. -/
def fail (failure : Failure) : Scan α :=
  fun state => { result := .error failure, state := state, events := [] }

/-- End with the error that the arguments are ruled out. -/
def refuse (what : String) : Scan α := fail (.error (.invalidArgument what))

/-- End with the error that the unread octets do not match. -/
def mismatch (what : String) : Scan α := do
  let cursor ← cursor
  fail (.error (.parse what cursor.position))

/-- Go on only under a condition that the contract of a primitive demands. -/
def demand (condition : Bool) (breach : Breach) : Scan Unit :=
  if condition then pure () else fail (.breach breach)

/-- Run a body as one transaction.  When it fails with an error, the cursor goes back to where
the body began, a parse error is reported as `what` at that offset, and an event tells of the
rollback. -/
def atomic (what : String) (body : Scan α) : Scan α :=
  fun state => (body.run state).rollBack what state.cursor.position

/-- Run a body for its effect; an error it ends with is forgotten. -/
def attempt (body : Scan α) : Scan Unit := fun state => (body.run state).forgive

@[simp] theorem run_cursor (state : State) :
    cursor.run state = { result := .ok state.cursor, state := state, events := [] } := rfl

@[simp] theorem run_output (state : State) :
    output.run state = { result := .ok state.output, state := state, events := [] } := rfl

@[simp] theorem run_seek (position : Nat) (state : State) :
    (seek position).run state =
      { result := .ok (), state := { state with cursor := state.cursor.seek position },
        events := [] } := rfl

@[simp] theorem run_setOutput (bytes : Bytes) (state : State) :
    (setOutput bytes).run state =
      { result := .ok (), state := { state with output := bytes }, events := [] } := rfl

@[simp] theorem run_emit (event : Event) (state : State) :
    (emit event).run state = { result := .ok (), state := state, events := [event] } := rfl

@[simp] theorem run_fail (failure : Failure) (state : State) :
    (fail failure : Scan α).run state =
      { result := .error failure, state := state, events := [] } := rfl

@[simp] theorem run_refuse (what : String) (state : State) :
    (refuse what : Scan α).run state =
      { result := .error (.error (.invalidArgument what)), state := state, events := [] } := rfl

@[simp] theorem run_mismatch (what : String) (state : State) :
    (mismatch what : Scan α).run state =
      { result := .error (.error (.parse what state.cursor.position)), state := state,
        events := [] } := rfl

@[simp] theorem demand_true (breach : Breach) : demand true breach = pure () := rfl

@[simp] theorem demand_false (breach : Breach) : demand false breach = fail (.breach breach) := rfl

@[simp] theorem run_atomic (what : String) (body : Scan α) (state : State) :
    (atomic what body).run state = (body.run state).rollBack what state.cursor.position := rfl

@[simp] theorem run_attempt (body : Scan α) (state : State) :
    (attempt body).run state = (body.run state).forgive := rfl

end Scan

end ByteCursor
