import ByteCursor.Proofs.Outcome
import ByteCursor.Scan.Byte
import Mathlib.Data.List.Induction

/-!
# Transactions of any body

A transaction keeps what a successful body did.  After an error the cursor stands again where the
transaction began, and a mismatch is reported as one of the transaction; the events of the body
and what it wrote to the output buffer stay.

Transactions right inside of each other come to the outermost one.  Only the events tell how many
there were.
-/

namespace ByteCursor

/-- Only a mismatch is given another name. -/
theorem ReadError.relabel_of_kind_ne {error : ReadError} (other : error.kind ≠ .parse)
    (what : String) (offset : Nat) : error.relabel what offset = error := by
  cases error with
  | invalidArgument | notTerminated => rfl
  | parse => exact absurd rfl other

namespace Scan

variable {α : Type}

/-- What a transaction makes of a body that begins in the state. -/
structure Transacts (what : String) (body : Scan α) (state : State) : Prop where
  /-- A success is kept as it is, with the position it ended at. -/
  succeeds : ∀ value, (body.run state).result = .ok value →
    (atomic what body).run state = body.run state
  /-- A mismatch goes by the name of the transaction and by the offset where that began. -/
  mismatches : ∀ inner offset,
    (body.run state).result = .error (.error (.parse inner offset)) →
    ((atomic what body).run state).result =
      .error (.error (.parse what state.cursor.position))
  /-- Every other error is passed on as it is. -/
  passesOn : ∀ error : ReadError, error.kind ≠ .parse →
    (body.run state).result = .error (.error error) →
    ((atomic what body).run state).result = .error (.error error)
  /-- After an error nothing but the position is undone. -/
  goesBack : ∀ error, (body.run state).result = .error (.error error) →
    ((atomic what body).run state).state =
      { (body.run state).state with
        cursor := (body.run state).state.cursor.seek state.cursor.position }
  /-- A body that did nothing to the cursor but move it leaves it as it was. -/
  unmoved : ∀ position error, (body.run state).state.cursor = state.cursor.seek position →
    (body.run state).result = .error (.error error) →
    ((atomic what body).run state).state.cursor = state.cursor
  /-- The rollback is told behind the events of the body. -/
  tells : ∀ error, (body.run state).result = .error (.error error) →
    ((atomic what body).run state).events =
      (body.run state).events ++ [.rolledBack what state.cursor.position]

/-- The body in transactions around each other, the innermost named first. -/
def nested (layers : List String) (body : Scan α) : Scan α :=
  layers.foldl (fun inner what => atomic what inner) body

/-- Transactions around each other do what the outermost does alone. -/
structure ActsAsOutermost (layers : List String) (outermost : String) (body : Scan α)
    (state : State) : Prop where
  sameResult : ((nested (layers ++ [outermost]) body).run state).result =
    ((atomic outermost body).run state).result
  sameState : ((nested (layers ++ [outermost]) body).run state).state =
    ((atomic outermost body).run state).state
  /-- None of them tells of a success. -/
  silent : ∀ value, (body.run state).result = .ok value →
    ((nested (layers ++ [outermost]) body).run state).events = (body.run state).events
  /-- Each of them tells of an error, at the offset where all of them began. -/
  tells : ∀ error, (body.run state).result = .error (.error error) →
    ((nested (layers ++ [outermost]) body).run state).events =
      (body.run state).events ++ rollbacks (layers ++ [outermost]) state.cursor.position

variable {body : Scan α} {state : State}

/-! ## One transaction -/

/-- A value and a breach pass through. -/
theorem run_atomic_of_no_error (what : String)
    (noError : ∀ error, (body.run state).result ≠ .error (.error error)) :
    (atomic what body).run state = body.run state := by
  rw [run_atomic]
  generalize body.run state = outcome at noError ⊢
  rcases outcome with ⟨(error | breach) | value, later, events⟩
  · exact absurd rfl (noError error)
  · rfl
  · rfl

theorem run_atomic_of_error {error : ReadError} (what : String)
    (ended : (body.run state).result = .error (.error error)) :
    (atomic what body).run state =
      { result := .error (.error (error.relabel what state.cursor.position))
        state :=
          { (body.run state).state with
            cursor := (body.run state).state.cursor.seek state.cursor.position }
        events := (body.run state).events ++ [.rolledBack what state.cursor.position] } := by
  rw [run_atomic]
  generalize body.run state = outcome at ended ⊢
  rcases outcome with ⟨result, later, events⟩
  cases ended
  rfl

theorem no_error_of_ok {value : α} (ended : (body.run state).result = .ok value)
    (error : ReadError) : (body.run state).result ≠ .error (.error error) := by
  rw [ended]
  exact nofun

theorem transacts (what : String) (body : Scan α) (state : State) :
    Transacts what body state := by
  refine ⟨?succeeds, ?mismatches, ?passesOn, ?goesBack, ?unmoved, ?tells⟩
  case succeeds =>
    intro value ended
    exact run_atomic_of_no_error what (no_error_of_ok ended)
  case mismatches =>
    intro inner offset ended
    rw [run_atomic_of_error what ended]
    rfl
  case passesOn =>
    intro error other ended
    rw [run_atomic_of_error what ended, ReadError.relabel_of_kind_ne other]
  case goesBack =>
    intro error ended
    rw [run_atomic_of_error what ended]
  case unmoved =>
    intro position error moved ended
    rw [run_atomic_of_error what ended, moved, Cursor.seek_seek, Cursor.seek_position]
  case tells =>
    intro error ended
    rw [run_atomic_of_error what ended]

/-! ## Transactions around each other -/

theorem nested_concat (layers : List String) (what : String) (body : Scan α) :
    nested (layers ++ [what]) body = atomic what (nested layers body) := by
  rw [nested, List.foldl_append]
  rfl

theorem run_nested_of_no_error (layers : List String)
    (noError : ∀ error, (body.run state).result ≠ .error (.error error)) :
    (nested layers body).run state = body.run state := by
  induction layers using List.reverseRecOn with
  | nil => rfl
  | append_singleton layers what ih =>
      rw [nested_concat, run_atomic_of_no_error what, ih]
      rw [ih]
      exact noError

/-- The outermost transaction names the error, and all of them go back to the same position. -/
theorem run_nested_of_error {error : ReadError} (layers : List String) (outermost : String)
    (ended : (body.run state).result = .error (.error error)) :
    (nested (layers ++ [outermost]) body).run state =
      { (atomic outermost body).run state with
        events := (body.run state).events ++
          rollbacks (layers ++ [outermost]) state.cursor.position } := by
  -- Each further transaction gives the error a new name in place of the one that it had, and
  -- goes back to where the cursor already stands.
  induction layers using List.reverseRecOn generalizing outermost with
  | nil =>
      rw [nested_concat, run_atomic_of_error outermost ended]
      exact run_atomic_of_error outermost ended
  | append_singleton layers what ih =>
      have inner := ih what
      rw [run_atomic_of_error what ended] at inner
      have innerEnded : ((nested (layers ++ [what]) body).run state).result =
          .error (.error (error.relabel what state.cursor.position)) := by rw [inner]
      rw [nested_concat, run_atomic_of_error outermost innerEnded, inner,
        run_atomic_of_error outermost ended, ReadError.relabel_relabel, Cursor.seek_seek]
      simp only [rollbacks, List.map_append, List.map_singleton, List.append_assoc]

theorem actsAsOutermost (layers : List String) (outermost : String) (body : Scan α)
    (state : State) : ActsAsOutermost layers outermost body state := by
  by_cases isError : ∃ error, (body.run state).result = .error (.error error)
  · rcases isError with ⟨error, ended⟩
    have ran := run_nested_of_error layers outermost ended
    refine ⟨?_, ?_, ?_, ?_⟩
    · rw [ran]
    · rw [ran]
    · intro value succeeded
      exact absurd ended (no_error_of_ok succeeded error)
    · intro _ _
      rw [ran]
  · rw [not_exists] at isError
    have ran := run_nested_of_no_error (layers ++ [outermost]) isError
    have alone := run_atomic_of_no_error outermost isError
    refine ⟨?_, ?_, ?_, ?_⟩
    · rw [ran, alone]
    · rw [ran, alone]
    · intro _ _
      rw [ran]
    · intro error ended
      exact absurd ended (isError error)

/-- Whatever its body does, a transaction keeps a success and undoes the moves of an error; and
any number of transactions around the body do what the outermost does. -/
theorem transactions_undo_errors (body : Scan α) (state : State) :
    (∀ what, Transacts what body state) ∧
      ∀ layers outermost, ActsAsOutermost layers outermost body state := by
  constructor
  · intro what
    exact transacts what body state
  · intro layers outermost
    exact actsAsOutermost layers outermost body state

/-- Two octets are read before the arguments turn out to be bad: the name of the error stays, and
the position and both rollbacks are those of the start. -/
example :
    let state : State :=
      { cursor := { bytes := [0x61, 0x62, 0x63], position := 1, options := {} }, output := [] }
    let body : Scan Unit := do
      let _ ← readByte
      let _ ← readByte
      refuse "size"
    let outcome := (nested ["inner", "outer"] body).run state
    outcome.result = .error (.error (.invalidArgument "size")) ∧ outcome.state = state ∧
      outcome.events = [.rolledBack "inner" 1, .rolledBack "outer" 1] := by
  decide

end Scan

end ByteCursor
