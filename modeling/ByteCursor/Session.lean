import ByteCursor.Call

/-!
# Sessions

A session works through steps on one cursor.  It keeps saved copies of the cursor on a stack and
accumulates how its calls ended in a status; every step is answered, whether it failed or not.

Only calls are recorded in the status, and only `resetStatus` forgets what was recorded.
-/

namespace ByteCursor

/-- A step of a session. -/
inductive Step where
  /-- Make a call and record how it ended. -/
  | call (call : Call)
  /-- Make a request to the raw view. -/
  | raw (request : RawRequest)
  /-- Ask a question. -/
  | query (query : Query)
  /-- Push a copy of the cursor on the stack. -/
  | save
  /-- Exchange the cursor with the top of the stack. -/
  | swap
  /-- Take the top of the stack as the cursor. -/
  | restore
  /-- Start with a new status. -/
  | resetStatus
  deriving DecidableEq, Repr

/-- What a session holds between steps. -/
structure Session where
  /-- The cursor that the steps work on. -/
  cursor : Cursor
  /-- The saved cursors, the latest first. -/
  saved : List Cursor := []
  /-- What the calls so far have met. -/
  status : Status := {}
  deriving DecidableEq, Repr

/-- The answer to a step. -/
structure Answer where
  /-- The reply or the failure. -/
  result : Except Failure Reply
  /-- The position after the step. -/
  position : Nat
  /-- The output buffer after the step, empty if none was handed over. -/
  output : Bytes
  /-- The events of the step. -/
  events : List Event

/-- How an outcome is recorded: by its error, if it has one. -/
def Scan.Outcome.verdict {α : Type} (outcome : Scan.Outcome α) : Except ReadError Unit :=
  match outcome.result with
  | .error (.error error) => .error error
  | _ => .ok ()

/-- The answer that an outcome gives. -/
def Answer.ofOutcome (outcome : Scan.Outcome Reply) : Answer where
  result := outcome.result
  position := outcome.state.cursor.position
  output := outcome.state.output
  events := outcome.events

/-- The answer of a step that leaves the cursor at a position and no events. -/
def Answer.plain (reply : Reply) (position : Nat) : Answer where
  result := .ok reply
  position := position
  output := []
  events := []

namespace Session

/-- Answer a question. -/
def ask (session : Session) : Query → Reply
  | .position => .count session.cursor.position
  | .length => .count session.cursor.length
  | .available => .count session.cursor.available
  | .isEmpty => .truth session.cursor.isEmpty
  | .remaining => .slice session.cursor.remaining
  | .peek => .next session.cursor.peek
  | .options => .options session.cursor.options
  | .status => .status session.status

/-- Exchange the cursor with the top of the stack; without saved cursors nothing changes. -/
def swap (session : Session) : Session :=
  match session.saved with
  | [] => session
  | top :: rest => { session with cursor := top, saved := session.cursor :: rest }

/-- Take the top of the stack as the cursor; without saved cursors nothing changes. -/
def restore (session : Session) : Session :=
  match session.saved with
  | [] => session
  | top :: rest => { session with cursor := top, saved := rest }

/-- Work through one step: its answer and the session after it. -/
def perform (session : Session) : Step → Answer × Session
  | .call call =>
      let outcome := call.run session.cursor
      (.ofOutcome outcome,
        { session with
          cursor := outcome.state.cursor
          status := session.status.record outcome.verdict })
  | .raw request =>
      let outcome := request.run session.cursor
      (.ofOutcome outcome, { session with cursor := outcome.state.cursor })
  | .query query => (.plain (session.ask query) session.cursor.position, session)
  | .save =>
      (.plain .nothing session.cursor.position,
        { session with saved := session.cursor :: session.saved })
  | .swap => (.plain .nothing session.swap.cursor.position, session.swap)
  | .restore => (.plain .nothing session.restore.cursor.position, session.restore)
  | .resetStatus => (.plain .nothing session.cursor.position, { session with status := {} })

/-- The answer to a step. -/
def answer (session : Session) (step : Step) : Answer := (session.perform step).1

/-- The session after a step. -/
def after (session : Session) (step : Step) : Session := (session.perform step).2

/-- Work through steps: the answers and the session at the end. -/
def run (session : Session) : List Step → List Answer × Session
  | [] => ([], session)
  | step :: rest =>
      let (answer, next) := session.perform step
      let (answers, last) := next.run rest
      (answer :: answers, last)

@[simp] theorem run_nil (session : Session) : session.run [] = ([], session) := rfl

@[simp] theorem run_cons (session : Session) (step : Step) (rest : List Step) :
    session.run (step :: rest) =
      (session.answer step :: ((session.after step).run rest).1,
        ((session.after step).run rest).2) := rfl

end Session

end ByteCursor
