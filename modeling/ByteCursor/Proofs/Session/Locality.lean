import ByteCursor.Proofs.Call.Locality
import ByteCursor.Proofs.Session.Reachable

/-!
# Runs depend on the unread octets only

Two cursors with the same options and the same octets unread answer every run alike.  The octets
that were read before leave no trace but the distance between the places that are reported, and
the octets from the terminating zero on leave none at all.
-/

namespace ByteCursor

namespace Step

/-- The reply to a question about a place, which lies so much further on; every other reply
depends on no place. -/
def shiftReply (distance : Nat) : Step → Reply → Reply
  | .query .position, .count place | .query .length, .count place => .count (distance + place)
  | _, reply => reply

/-- The answer to the step at a place so much further on. -/
def shift (distance : Nat) (step : Step) (answer : Answer) : Answer where
  result := (answer.result.map (step.shiftReply distance)).mapError (Failure.shift distance)
  position := distance + answer.position
  output := answer.output
  events := answer.events.map (Event.shift distance)

theorem shiftReply_shiftReply (first second : Nat) (step : Step) (reply : Reply) :
    step.shiftReply first (step.shiftReply second reply) =
      step.shiftReply (first + second) reply := by
  cases step with
  | query query =>
      cases query <;> cases reply <;> simp [shiftReply, Nat.add_assoc]
  | call | raw | save | swap | restore | resetStatus => rfl

/-- Two distances add up. -/
theorem shift_shift (first second : Nat) (step : Step) (answer : Answer) :
    step.shift first (step.shift second answer) = step.shift (first + second) answer := by
  rcases answer with ⟨result, position, output, events⟩
  have sameEvents : (events.map (Event.shift second)).map (Event.shift first) =
      events.map (Event.shift (first + second)) := by
    rw [List.map_map]
    exact List.map_congr_left fun event _ => Event.shift_shift first second event
  cases result with
  | ok reply =>
      simp [shift, Except.map, Except.mapError, shiftReply_shiftReply, sameEvents, Nat.add_assoc]
  | error failure =>
      simp [shift, Except.map, Except.mapError, Failure.shift_shift, sameEvents, Nat.add_assoc]

theorem zipWith_shift_shift (first second : Nat) (steps : List Step) (answers : List Answer) :
    steps.zipWith (shift first) (steps.zipWith (shift second) answers) =
      steps.zipWith (shift (first + second)) answers := by
  induction steps generalizing answers with
  | nil => rfl
  | cons step rest ih =>
      cases answers with
      | nil => rfl
      | cons answer later =>
          rw [List.zipWith_cons_cons, List.zipWith_cons_cons, List.zipWith_cons_cons,
            shift_shift, ih]

/-- A call of the step does on the moved cursor what it does on the cursor itself. -/
def Follows (step : Step) (relocation : Cursor.Relocation) (cursor : Cursor) : Prop :=
  ∀ call, step = .call call →
    call.run (relocation.move cursor) = (call.run cursor).move relocation

end Step

namespace Session

/-- The session with all its cursors moved. -/
def move (relocation : Cursor.Relocation) (session : Session) : Session where
  cursor := relocation.move session.cursor
  saved := session.saved.map relocation.move
  status := session.status

variable {session : Session} {relocation : Cursor.Relocation}

/-- A status remembers kinds of errors and no places. -/
theorem record_verdict_move {α : Type} (status : Status) (outcome : Scan.Outcome α) :
    status.record (outcome.move relocation).verdict = status.record outcome.verdict := by
  rcases outcome with ⟨result, state, events⟩
  cases result with
  | ok value => rfl
  | error failure =>
      cases failure with
      | breach breach => rfl
      | error error =>
          change status.note (error.shift relocation.distance) = status.note error
          rw [Status.note, Status.note, ReadError.kind_shift]

theorem swap_move : (session.move relocation).swap = session.swap.move relocation := by
  rcases session with ⟨cursor, saved, status⟩
  cases saved <;> rfl

theorem restore_move : (session.move relocation).restore = session.restore.move relocation := by
  rcases session with ⟨cursor, saved, status⟩
  cases saved <;> rfl

/-- The answer that an outcome gives lies as much further on as the outcome. -/
theorem ofOutcome_move {step : Step} (outcome : Scan.Outcome Reply)
    (placeless : step.shiftReply relocation.distance = id) :
    Answer.ofOutcome (outcome.move relocation) =
      step.shift relocation.distance (.ofOutcome outcome) := by
  rcases outcome with ⟨result, state, events⟩
  cases result with
  | ok reply =>
      simp [Answer.ofOutcome, Scan.Outcome.move, Step.shift, Except.map, Except.mapError,
        placeless]
  | error failure =>
      simp [Answer.ofOutcome, Scan.Outcome.move, Step.shift, Except.map, Except.mapError]

/-- A plain answer moves with the cursor. -/
theorem plain_move (step : Step) (reply : Reply) (cursor : Cursor) :
    Answer.plain (step.shiftReply relocation.distance reply) (relocation.move cursor).position =
      step.shift relocation.distance (.plain reply cursor.position) := by
  simp [Answer.plain, Step.shift, Except.map, Except.mapError]

theorem ask_move (query : Query)
    (sameOptions : query = .options →
      (relocation.move session.cursor).options = session.cursor.options) :
    (session.move relocation).ask query =
      Step.shiftReply relocation.distance (.query query) (session.ask query) := by
  cases query with
  | position => exact congrArg Reply.count (relocation.position_move _)
  | length => exact congrArg Reply.count (relocation.length_move _)
  | available => exact congrArg Reply.count (relocation.available_move _)
  | isEmpty => exact congrArg Reply.truth (relocation.isEmpty_move _)
  | remaining => exact congrArg Reply.slice (relocation.remaining_move _)
  | peek => exact congrArg Reply.next (relocation.peek_move _)
  | options => exact congrArg Reply.options (sameOptions rfl)
  | status => rfl

/-- On moved cursors a step is answered alike, if its call follows them. -/
theorem answer_move (valid : (relocation.move session.cursor).Valid) {step : Step}
    (follows : step.Follows relocation session.cursor)
    (sameOptions : step = .query .options →
      (relocation.move session.cursor).options = session.cursor.options) :
    (session.move relocation).answer step =
      step.shift relocation.distance (session.answer step) := by
  cases step with
  | call call =>
      change Answer.ofOutcome (call.run (relocation.move session.cursor)) = _
      rw [follows call rfl]
      exact ofOutcome_move _ rfl
  | raw request =>
      change Answer.ofOutcome (request.run (relocation.move session.cursor)) = _
      rw [request.run_move valid]
      exact ofOutcome_move _ rfl
  | query query =>
      change Answer.plain ((session.move relocation).ask query) _ = _
      rw [ask_move query fun asks => sameOptions (congrArg Step.query asks)]
      exact plain_move _ _ session.cursor
  | swap =>
      change Answer.plain .nothing (session.move relocation).swap.cursor.position = _
      rw [swap_move]
      exact plain_move .swap .nothing session.swap.cursor
  | restore =>
      change Answer.plain .nothing (session.move relocation).restore.cursor.position = _
      rw [restore_move]
      exact plain_move .restore .nothing session.restore.cursor
  | save => exact plain_move .save .nothing session.cursor
  | resetStatus => exact plain_move .resetStatus .nothing session.cursor

/-- A step leads from moved cursors to moved cursors, if its call follows them. -/
theorem after_move (valid : (relocation.move session.cursor).Valid) {step : Step}
    (follows : step.Follows relocation session.cursor) :
    (session.move relocation).after step = (session.after step).move relocation := by
  cases step with
  | call call =>
      simp only [after, perform, move, follows call rfl, record_verdict_move]
      rfl
  | raw request =>
      simp only [after, perform, move, request.run_move valid]
      rfl
  | swap => exact swap_move
  | restore => exact restore_move
  | query | save | resetStatus => rfl

/-- Behind other octets a run is answered alike and ends behind them. -/
theorem run_behind {consumed : Bytes} (valid : (session.move (.behind consumed)).Valid)
    (steps : List Step) :
    (session.move (.behind consumed)).run steps =
      (steps.zipWith (Step.shift consumed.length) (session.run steps).1,
        (session.run steps).2.move (.behind consumed)) := by
  induction steps generalizing session with
  | nil => rfl
  | cons step rest ih =>
      have follows : step.Follows (.behind consumed) session.cursor := fun call _ =>
        call.run_move valid.cursor (call.agrees_self _)
      have later := valid.after step
      rw [after_move valid.cursor follows] at later
      rw [run_cons, answer_move valid.cursor follows fun _ => rfl,
        after_move valid.cursor follows, ih later, run_cons, List.zipWith_cons_cons]
      rfl

/-- A run is answered as from the unread octets alone, at places behind the octets that were
read before. -/
theorem answers_eq_zipWith {cursor : Cursor} (valid : cursor.Valid) (steps : List Step) :
    (run { cursor := cursor } steps).1 =
      steps.zipWith (Step.shift cursor.position) (run { cursor := cursor.rebased } steps).1 := by
  let consumed := cursor.bytes.take cursor.position
  have length : consumed.length = cursor.position := List.length_take_of_le valid.inside
  have start : ({ cursor := cursor } : Session) =
      move (.behind consumed) { cursor := cursor.rebased } :=
    congrArg (fun cursor => ({ cursor := cursor } : Session)) valid.eq_behind
  have startValid : (move (.behind consumed) { cursor := cursor.rebased }).Valid := by
    rw [← start]
    exact ⟨valid, by simp⟩
  rw [start, run_behind startValid, length]

end Session

/-- Two buffers that agree before a zero octet are opened as the same cursor. -/
theorem Cursor.ofBuffer_congr {buffer other : Bytes} {length : Nat} (options : Options)
    (shared : buffer.take length = other.take length) (ended : buffer[length]? = some 0)
    (otherEnded : other[length]? = some 0) :
    ofBuffer buffer length options = ofBuffer other length options := by
  have nonempty : buffer.isEmpty = false := by
    cases buffer with
    | nil => simp at ended
    | cons byte rest => rfl
  have otherNonempty : other.isEmpty = false := by
    cases other with
    | nil => simp at otherEnded
    | cons byte rest => rfl
  rw [ofBuffer, ofBuffer, nonempty, otherNonempty, if_pos ended, if_pos otherEnded, shared]

namespace Session

/-- Cursors with the same options and the same octets unread answer every run alike, up to the
distance between them: added to the places of the other, the position of each gives the same
answers.  What stands behind the terminating zero does not even reach the cursor. -/
theorem runs_depend_on_unread_octets {first second : Cursor}
    (firstReachable : first.Reachable) (secondReachable : second.Reachable)
    (sameOptions : first.options = second.options)
    (sameUnread : first.remaining = second.remaining) :
    (∀ steps : List Step,
      steps.zipWith (Step.shift second.position) (run { cursor := first } steps).1 =
        steps.zipWith (Step.shift first.position) (run { cursor := second } steps).1) ∧
    ∀ buffer other length options, buffer.take length = other.take length →
      buffer[length]? = some 0 → other[length]? = some 0 →
      Cursor.ofBuffer buffer length options = Cursor.ofBuffer other length options := by
  constructor
  · intro steps
    have sameRebased : first.rebased = second.rebased := by
      rw [Cursor.rebased, Cursor.rebased, sameOptions, sameUnread]
    rw [answers_eq_zipWith firstReachable.valid, answers_eq_zipWith secondReachable.valid,
      sameRebased, Step.zipWith_shift_shift, Step.zipWith_shift_shift, Nat.add_comm]
  · intro buffer other length options shared ended otherEnded
    exact Cursor.ofBuffer_congr options shared ended otherEnded

/-- A number is missed, a request asks for too much and a copy is taken back, at places that are
three octets apart. -/
theorem runs_depend_on_unread_octets_apart :
    let first : Cursor :=
      { bytes := [0x61, 0x62, 0x2c, 0x78, 0x31], position := 3, options := {} }
    let second : Cursor := { bytes := [0x78, 0x31], position := 0, options := {} }
    let steps : List Step :=
      [.save, .call (.readDecimal .u8), .raw (.advance 9), .call .readByte, .restore,
        .query .position]
    first.Reachable ∧ second.Reachable ∧ first.options = second.options ∧
      first.remaining = second.remaining ∧
      steps.zipWith (Step.shift 0) (run { cursor := first } steps).1 =
        steps.zipWith (Step.shift 3) (run { cursor := second } steps).1 := by
  intro first second steps
  have opened : Session.Reachable
      { cursor :=
          { bytes := [0x61, 0x62, 0x2c, 0x78, 0x31], position := 0, options := {} } } :=
    .ofText (by decide) (by decide) {}
  have firstReachable : first.Reachable :=
    ⟨_, opened.after (.call (.readSlice 3)), by decide⟩
  have secondReachable : second.Reachable := .ofText (by decide) (by decide) {}
  exact ⟨firstReachable, secondReachable, rfl, rfl,
    (runs_depend_on_unread_octets firstReachable secondReachable rfl rfl).1 steps⟩

end Session

end ByteCursor
