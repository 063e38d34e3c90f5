import ByteCursor.Proofs.Session.Reachable

/-!
# Calls are transactions

A call that fails leaves the cursor and the output buffer as they were, and its error names the
call and the position at which it began.  So the steps of a run that fail can be left out, and
the others are answered as before.

Only the recorded status knows of the failures, so answers are compared without it.
-/

namespace ByteCursor

namespace Call.Ends

variable {call : Call} {cursor : Cursor} {outcome : Scan.Outcome Reply}

/-- A call refuses exactly the arguments that are objected to. -/
theorem refuses_iff (ends : call.Ends cursor outcome) (what : String) :
    outcome.result = .error (.error (.invalidArgument what)) ↔
      call.objection? = some what := by
  cases ends with
  | refused objection =>
      rw [objection]
      constructor
      · intro failed
        cases failed
        rfl
      · intro same
        cases same
        rfl
  | missed accepted =>
      rw [accepted]
      constructor
      · intro failed
        cases failed
      · intro same
        cases same
  | took accepted unread takes =>
      rw [accepted]
      constructor
      · intro failed
        cases failed
      · intro same
        cases same

theorem state_of_error (ends : call.Ends cursor outcome) {failure : Failure}
    (failed : outcome.result = .error failure) : outcome.state = call.start cursor := by
  cases ends with
  | refused objection => rfl
  | missed accepted => rfl
  | took accepted unread takes => cases failed

/-- With arguments that are not objected to a failure is a miss of the call itself. -/
theorem failure_of_error (ends : call.Ends cursor outcome) {failure : Failure}
    (failed : outcome.result = .error failure) (accepted : call.objection? = none) :
    failure = .error (.parse call.name cursor.position) := by
  cases ends with
  | refused objection =>
      rw [objection] at accepted
      cases accepted
  | missed _ =>
      cases failed
      rfl
  | took _ unread takes => cases failed

end Call.Ends

namespace Answer

/-- The step was answered with a reply. -/
def succeeds (answer : Answer) : Bool := answer.result.isOk

theorem exists_failure {answer : Answer} (fails : answer.succeeds = false) :
    ∃ failure, answer.result = .error failure := by
  rw [succeeds] at fails
  cases result : answer.result with
  | ok reply =>
      rw [result] at fails
      cases fails
  | error failure => exact ⟨failure, rfl⟩

theorem exists_reply {answer : Answer} (succeeds : answer.succeeds = true) :
    ∃ reply, answer.result = .ok reply := by
  rw [Answer.succeeds] at succeeds
  cases result : answer.result with
  | ok reply => exact ⟨reply, rfl⟩
  | error failure =>
      rw [result] at succeeds
      cases succeeds

/-- The answer with an empty status in place of one that it reports. -/
def withoutStatus (answer : Answer) : Answer :=
  match answer.result with
  | .ok (.status _) => { answer with result := .ok (.status {}) }
  | _ => answer

end Answer

namespace Session

/-- The steps that succeed in the run. -/
def survivors (session : Session) : List Step → List Step
  | [] => []
  | step :: rest =>
      if (session.answer step).succeeds then step :: (session.after step).survivors rest
      else (session.after step).survivors rest

/-- The sessions differ in their status at most. -/
structure Similar (first second : Session) : Prop where
  cursor : first.cursor = second.cursor
  saved : first.saved = second.saved

variable {first second session : Session}

theorem Similar.trans {third : Session} (left : Similar first second)
    (right : Similar second third) : Similar first third :=
  ⟨left.cursor.trans right.cursor, left.saved.trans right.saved⟩

theorem Similar.symm (similar : Similar first second) : Similar second first :=
  ⟨similar.cursor.symm, similar.saved.symm⟩

theorem Similar.answer (similar : Similar first second) (step : Step) :
    (first.answer step).withoutStatus = (second.answer step).withoutStatus := by
  rcases first with ⟨cursor, saved, firstStatus⟩
  rcases second with ⟨otherCursor, otherSaved, secondStatus⟩
  rcases similar with ⟨rfl, rfl⟩
  cases step with
  | call | raw | save | resetStatus => rfl
  | query query => cases query <;> rfl
  | swap => cases saved <;> rfl
  | restore => cases saved <;> rfl

theorem Similar.after (similar : Similar first second) (step : Step) :
    Similar (first.after step) (second.after step) := by
  rcases first with ⟨cursor, saved, firstStatus⟩
  rcases second with ⟨otherCursor, otherSaved, secondStatus⟩
  rcases similar with ⟨rfl, rfl⟩
  cases step with
  | call | raw | save | query | resetStatus => exact ⟨rfl, rfl⟩
  | swap => cases saved <;> exact ⟨rfl, rfl⟩
  | restore => cases saved <;> exact ⟨rfl, rfl⟩

theorem Similar.run (similar : Similar first second) (steps : List Step) :
    (first.run steps).1.map Answer.withoutStatus =
        (second.run steps).1.map Answer.withoutStatus ∧
      Similar (first.run steps).2 (second.run steps).2 := by
  induction steps generalizing first second with
  | nil => exact ⟨rfl, similar⟩
  | cons step rest ih =>
      rcases ih (similar.after step) with ⟨answers, ends⟩
      refine ⟨?_, ends⟩
      rw [run_cons, run_cons, List.map_cons, List.map_cons, similar.answer step, answers]

/-- A step that fails changes the status at most. -/
theorem similar_after (valid : session.Valid) {step : Step}
    (fails : (session.answer step).succeeds = false) : Similar (session.after step) session := by
  rcases Answer.exists_failure fails with ⟨failure, failed⟩
  cases step with
  | call call =>
      have unchanged := (call.ends valid.cursor).state_of_error failed
      exact ⟨congrArg Scan.State.cursor unchanged, rfl⟩
  | raw request =>
      have unchanged := (request.ends valid.cursor).state_of_error failed
      exact ⟨congrArg Scan.State.cursor unchanged, rfl⟩
  | query | save | swap | restore | resetStatus => cases failed

/-- The steps that fail can be left out of a run. -/
theorem run_survivors (valid : session.Valid) (steps : List Step) :
    (session.run (session.survivors steps)).1.map Answer.withoutStatus =
        ((session.run steps).1.filter Answer.succeeds).map Answer.withoutStatus ∧
      Similar (session.run (session.survivors steps)).2 (session.run steps).2 := by
  induction steps generalizing session with
  | nil => exact ⟨rfl, rfl, rfl⟩
  | cons step rest ih =>
      rcases ih (valid.after step) with ⟨answers, ends⟩
      rw [survivors, run_cons]
      cases outcome : (session.answer step).succeeds with
      | true =>
          rw [if_pos rfl, run_cons, List.filter_cons_of_pos outcome]
          refine ⟨?_, ends⟩
          rw [List.map_cons, List.map_cons, answers]
      | false =>
          have same := (similar_after valid outcome).symm.run
            ((session.after step).survivors rest)
          rw [if_neg Bool.false_ne_true, List.filter_cons_of_neg (by simp [outcome])]
          exact ⟨same.1.trans answers, same.2.trans ends⟩

/-- A failing call changes nothing and is named as its caller knows it, and leaving out all
failing steps of a run changes no other answer. -/
theorem failures_leave_no_trace (reachable : session.Reachable) :
    (∀ call : Call,
      (∀ what, (call.run session.cursor).result = .error (.error (.invalidArgument what)) ↔
        call.objection? = some what) ∧
      ∀ failure, (call.run session.cursor).result = .error failure →
        (call.run session.cursor).state = { cursor := session.cursor, output := call.output } ∧
        (call.objection? = none →
          failure = .error (.parse call.name session.cursor.position))) ∧
    ∀ steps,
      (session.run (session.survivors steps)).1.map Answer.withoutStatus =
          ((session.run steps).1.filter Answer.succeeds).map Answer.withoutStatus ∧
        (session.run (session.survivors steps)).2.cursor = (session.run steps).2.cursor ∧
        (session.run (session.survivors steps)).2.saved = (session.run steps).2.saved := by
  have valid := reachable.valid
  constructor
  · intro call
    have ends := call.ends valid.cursor
    constructor
    · exact ends.refuses_iff
    · intro failure failed
      exact ⟨ends.state_of_error failed, ends.failure_of_error failed⟩
  · intro steps
    rcases run_survivors valid steps with ⟨answers, similar⟩
    exact ⟨answers, similar.cursor, similar.saved⟩

/-- Five digits are too many for 16 bits, and a read that passed over the lead and the digits
leaves the spaces where they were. -/
theorem failures_leave_no_trace_overflow :
    let session : Session :=
      { cursor :=
          { bytes := [0x20, 0x30, 0x78, 0x31, 0x32, 0x33, 0x34, 0x35], position := 0,
            options := {} } }
    let call : Call := .readHex .u16 .little
    session.Reachable ∧
      (call.run session.cursor).result = .error (.error (.parse "u16 le" 0)) ∧
      (call.run session.cursor).state = { cursor := session.cursor, output := [] } ∧
      (session.run [.call .trimSpaces]).1.map Answer.withoutStatus =
        ((session.run [.call call, .call .trimSpaces]).1.filter Answer.succeeds).map
          Answer.withoutStatus := by
  intro session call
  have reachable : session.Reachable := .ofText (by decide) (by decide) {}
  have leavesNoTrace := failures_leave_no_trace reachable
  have failed : (call.run session.cursor).result = .error (.error (.parse "u16 le" 0)) := by
    decide
  have survives : session.survivors [.call call, .call .trimSpaces] = [.call .trimSpaces] := by
    decide
  have answers := (leavesNoTrace.2 [.call call, .call .trimSpaces]).1
  rw [survives] at answers
  exact ⟨reachable, failed, ((leavesNoTrace.1 call).2 _ failed).1, answers⟩

end Session

end ByteCursor
