import ByteCursor.Scan.Bounded

/-!
# Outcomes on valid cursors

On a valid cursor a scan ends in one of three ways: it takes some of the unread octets, it
misses, or it refuses its arguments.  The second and the third leave the state as it was.

The laws of this module say how the three compose under sequencing and rolling back, so that a
proof about a scan never looks inside an outcome.
-/

namespace ByteCursor

namespace Cursor

/-- The position lies within the octets, and their number is a machine word. -/
structure Valid (cursor : Cursor) : Prop where
  inside : cursor.position ≤ cursor.length
  isWord : cursor.length < sizeLimit

/-- The cursor behind so many more octets. -/
def pass (cursor : Cursor) (count : Nat) : Cursor := cursor.seek (cursor.position + count)

variable {cursor : Cursor}

@[simp] theorem bytes_pass (count : Nat) : (cursor.pass count).bytes = cursor.bytes := rfl

@[simp] theorem length_pass (count : Nat) : (cursor.pass count).length = cursor.length := rfl

@[simp] theorem options_pass (count : Nat) : (cursor.pass count).options = cursor.options := rfl

@[simp] theorem position_pass (count : Nat) :
    (cursor.pass count).position = cursor.position + count := rfl

@[simp] theorem pass_zero : cursor.pass 0 = cursor := rfl

@[simp] theorem pass_pass (first second : Nat) :
    (cursor.pass first).pass second = cursor.pass (first + second) := by
  simp [pass, Nat.add_assoc]

@[simp] theorem seek_pass (count position : Nat) :
    (cursor.pass count).seek position = cursor.seek position := rfl

@[simp] theorem remaining_pass (count : Nat) :
    (cursor.pass count).remaining = cursor.remaining.drop count := by
  simp [remaining]

@[simp] theorem available_pass (count : Nat) :
    (cursor.pass count).available = cursor.available - count := by
  simp only [available, length_pass, position_pass]
  omega

theorem isEmpty_eq_false_iff : cursor.isEmpty = false ↔ cursor.available ≠ 0 := by
  rw [← Bool.not_eq_true, isEmpty_iff]

theorem remaining_eq_nil_iff : cursor.remaining = [] ↔ cursor.available = 0 := by
  rw [← List.length_eq_zero_iff, length_remaining]

/-- A part of the unread octets is the part of the buffer between two positions. -/
theorem take_remaining (count : Nat) :
    cursor.remaining.take count =
      (cursor.bytes.take (cursor.position + count)).drop cursor.position := by
  rw [remaining, List.take_drop]

theorem length_takeWhile_le (inClass : UInt8 → Bool) :
    (cursor.remaining.takeWhile inClass).length ≤ cursor.available := by
  rw [← length_remaining]
  exact (List.takeWhile_prefix inClass).length_le

/-- A start of the unread octets is no longer than they are. -/
theorem length_le_available {token rest : Bytes} (unread : cursor.remaining = token ++ rest) :
    token.length ≤ cursor.available := by
  rw [← length_remaining, unread, List.length_append]
  exact Nat.le_add_right _ _

/-- As many octets as are unread can be split off. -/
theorem exists_slice {size : Nat} (fits : size ≤ cursor.available) :
    ∃ slice rest, cursor.remaining = slice ++ rest ∧ slice.length = size ∧
      cursor.remaining.take size = slice := by
  refine ⟨_, _, (List.take_append_drop size _).symm, ?_, rfl⟩
  rw [List.length_take, Cursor.length_remaining]
  exact Nat.min_eq_left fits

/-- Two parts of the unread octets can be split off one after the other. -/
theorem exists_slices {first second : Nat} (fits : first + second ≤ cursor.available) :
    ∃ front back rest, cursor.remaining = front ++ back ++ rest ∧ front.length = first ∧
      back.length = second := by
  obtain ⟨slice, rest, unread, length, -⟩ := exists_slice fits
  refine ⟨slice.take first, slice.drop first, rest, ?_, ?_, ?_⟩
  · rw [List.take_append_drop, unread]
  · rw [List.length_take, length]
    exact Nat.min_eq_left (Nat.le_add_right _ _)
  · rw [List.length_drop, length, Nat.add_sub_cancel_left]

namespace Valid

theorem position_add_available (valid : cursor.Valid) :
    cursor.position + cursor.available = cursor.length := by
  have inside := valid.inside
  simp only [available]
  omega

/-- A position after unread octets is a machine word. -/
theorem position_add_lt (valid : cursor.Valid) {count : Nat} (fits : count ≤ cursor.available) :
    cursor.position + count < sizeLimit := by
  have total := valid.position_add_available
  have isWord := valid.isWord
  omega

/-- Passing over unread octets stays within the octets. -/
theorem pass (valid : cursor.Valid) {count : Nat} (fits : count ≤ cursor.available) :
    (cursor.pass count).Valid where
  inside := by
    have total := valid.position_add_available
    rw [position_pass, length_pass]
    omega
  isWord := valid.isWord

end Valid

end Cursor

namespace Scan

/-- The state behind so many more octets. -/
def State.pass (state : State) (count : Nat) : State :=
  { state with cursor := state.cursor.pass count }

@[simp] theorem State.cursor_pass (state : State) (count : Nat) :
    (state.pass count).cursor = state.cursor.pass count := rfl

@[simp] theorem State.output_pass (state : State) (count : Nat) :
    (state.pass count).output = state.output := rfl

@[simp] theorem State.pass_zero (state : State) : state.pass 0 = state := rfl

@[simp] theorem State.pass_pass (state : State) (first second : Nat) :
    (state.pass first).pass second = state.pass (first + second) := by
  simp [State.pass]

namespace Outcome

variable {α β : Type}

/-- The scan passed over `count` octets and gave a value. -/
def took (value : α) (count : Nat) (state : State) (events : List Event) : Outcome α where
  result := .ok value
  state := state.pass count
  events := events

/-- The unread octets of the state were not what the scan looks for. -/
def missed (what : String) (state : State) (events : List Event) : Outcome α where
  result := .error (.error (.parse what state.cursor.position))
  state := state
  events := events

/-- The arguments of the scan were ruled out. -/
def refused (what : String) (state : State) : Outcome α where
  result := .error (.error (.invalidArgument what))
  state := state
  events := []

/-- The scan broke off, because the caller did not keep a promise. -/
def breached (breach : Breach) (state : State) : Outcome α where
  result := .error (.breach breach)
  state := state
  events := []

/-- The outcome with events that were left earlier. -/
def following (earlier : List Event) (outcome : Outcome α) : Outcome α :=
  { outcome with events := earlier ++ outcome.events }

@[simp] theorem following_nil (outcome : Outcome α) : outcome.following [] = outcome := rfl

@[simp] theorem following_took (earlier events : List Event) (value : α) (count : Nat)
    (state : State) :
    (took value count state events).following earlier =
      took value count state (earlier ++ events) := rfl

@[simp] theorem following_missed (earlier events : List Event) (what : String) (state : State) :
    (missed what state events : Outcome α).following earlier =
      missed what state (earlier ++ events) := rfl

/-- Two passes in a row are one. -/
@[simp] theorem took_pass (value : α) (first second : Nat) (state : State)
    (events : List Event) :
    took value second (state.pass first) events = took value (first + second) state events := by
  simp [took]

@[simp] theorem took_andThen (value : α) (count : Nat) (state : State) (events : List Event)
    (next : α → Scan β) :
    (took value count state events).andThen next =
      ((next value).run (state.pass count)).following events := rfl

@[simp] theorem missed_andThen (what : String) (state : State) (events : List Event)
    (next : α → Scan β) :
    (missed what state events).andThen next = missed what state events := rfl

@[simp] theorem refused_andThen (what : String) (state : State) (next : α → Scan β) :
    (refused what state).andThen next = refused what state := rfl

@[simp] theorem breached_andThen (breach : Breach) (state : State) (next : α → Scan β) :
    (breached breach state).andThen next = breached breach state := rfl

@[simp] theorem took_rollBack (what : String) (start : Nat) (value : α) (count : Nat)
    (state : State) (events : List Event) :
    (took value count state events).rollBack what start = took value count state events := rfl

/-- A miss after some progress is undone and named anew. -/
@[simp] theorem missed_pass_rollBack (inner what : String) (count : Nat) (state : State)
    (events : List Event) :
    (missed inner (state.pass count) events : Outcome α).rollBack what state.cursor.position =
      missed what state (events ++ [.rolledBack what state.cursor.position]) := rfl

@[simp] theorem missed_rollBack (inner what : String) (state : State) (events : List Event) :
    (missed inner state events : Outcome α).rollBack what state.cursor.position =
      missed what state (events ++ [.rolledBack what state.cursor.position]) := rfl

end Outcome

/-- The events of nested layers that all went back to the same offset, the innermost first. -/
def rollbacks (layers : List String) (start : Nat) : List Event :=
  layers.map fun layer => .rolledBack layer start

/-! ## Primitive scans on valid cursors -/

variable {α β : Type} {state : State}

theorem run_pure_eq_took (value : α) (state : State) :
    (pure value : Scan α).run state = .took value 0 state [] := rfl

theorem run_mismatch_eq_missed (what : String) (state : State) :
    (mismatch what : Scan α).run state = .missed what state [] := rfl

/-- A scan that gives a value without an event hands its state on. -/
theorem run_bind_of_ok {scan : Scan α} {value : α} {later : State}
    (succeeds : scan.run state = { result := .ok value, state := later, events := [] })
    (next : α → Scan β) : (scan >>= next).run state = (next value).run later := by
  rw [run_bind, succeeds, andThen_ok, List.nil_append]

theorem run_map (f : α → β) (scan : Scan α) (state : State) :
    (f <$> scan).run state = (scan.run state).andThen fun value => pure (f value) := by
  rw [← bind_pure_comp, run_bind]

theorem run_map_of_took {f : α → β} {scan : Scan α} {value : α} {count : Nat} {later : State}
    {events : List Event} (ends : scan.run state = .took value count later events) :
    (f <$> scan).run state = .took (f value) count later events := by
  rw [run_map, ends, Outcome.took_andThen, run_pure_eq_took, Outcome.following_took,
    Outcome.took_pass, Nat.add_zero, List.append_nil]

theorem run_map_of_missed {f : α → β} {scan : Scan α} {what : String} {later : State}
    {events : List Event} (ends : scan.run state = .missed what later events) :
    (f <$> scan).run state = .missed what later events := by
  rw [run_map, ends, Outcome.missed_andThen]

theorem run_map_of_refused {f : α → β} {scan : Scan α} {what : String} {later : State}
    (ends : scan.run state = .refused what later) :
    (f <$> scan).run state = .refused what later := by
  rw [run_map, ends, Outcome.refused_andThen]

theorem run_map_of_breached {f : α → β} {scan : Scan α} {breach : Breach} {later : State}
    (ends : scan.run state = .breached breach later) :
    (f <$> scan).run state = .breached breach later := by
  rw [run_map, ends, Outcome.breached_andThen]

theorem run_advance_of_valid {count : Nat} (valid : state.cursor.Valid)
    (fits : count ≤ state.cursor.available) :
    (advance count).run state = .took () count state [] :=
  run_advance fits (valid.position_add_lt fits)

theorem run_remaining_of_valid (valid : state.cursor.Valid) :
    remaining.run state = .took state.cursor.remaining 0 state [] :=
  run_remaining valid.inside

theorem run_addSizes {left right : Nat} (isWord : left + right < sizeLimit) (state : State) :
    (addSizes left right).run state = .took (left + right) 0 state [] := by
  simp [addSizes, isWord, Outcome.took]

/-- The longest run of a class is taken, be it empty. -/
theorem run_takeRun (valid : state.cursor.Valid) (inClass : UInt8 → Bool) :
    (takeRun inClass).run state =
      .took (state.cursor.remaining.takeWhile inClass)
        (state.cursor.remaining.takeWhile inClass).length state [] := by
  rw [takeRun, run_bind_of_ok (run_remaining_of_valid valid), State.pass_zero,
    run_bind_of_ok (run_advance_of_valid valid (Cursor.length_takeWhile_le inClass))]
  rfl

end Scan

end ByteCursor
