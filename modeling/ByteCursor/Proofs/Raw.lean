import ByteCursor.Call
import ByteCursor.Proofs.Outcome

/-!
# Tokens of raw requests

A raw request demands a number of octets.  It takes exactly so many, or there are fewer and it
breaks off with the state as it was.

`Scan.TakesOctets` and `Scan.FillsOutput` are what the interface of a binary stream promises about
the requests that it builds on the three operations of its implementor.
-/

namespace ByteCursor

namespace Scan

variable {α : Type} {state : State}

/-- What taking octets off a stream promises. -/
structure TakesOctets (scan : Scan α) (count : Nat) (meaning : Bytes → α) : Prop where
  /-- The octets are passed over and give their meaning. -/
  takes : ∀ {state : State}, state.cursor.Valid → count ≤ state.cursor.available →
    scan.run state = .took (meaning (state.cursor.remaining.take count)) count state []
  /-- With too few octets the stream stays as it is. -/
  refuses : ∀ {state : State}, state.cursor.available < count →
    scan.run state = .breached (.shortRead state.cursor.available count) state

/-- What copying octets from a stream into a buffer promises. -/
structure FillsOutput (scan : Scan Unit) : Prop where
  /-- The octets that fill the buffer are copied and passed over. -/
  fills : ∀ {state : State}, state.cursor.Valid → state.output.length ≤ state.cursor.available →
    scan.run state = .took () state.output.length
      { state with output := state.cursor.remaining.take state.output.length } []
  /-- With too few octets the stream and the buffer stay as they are. -/
  refuses : ∀ {state : State}, state.cursor.available < state.output.length →
    scan.run state = .breached (.shortRead state.cursor.available state.output.length) state

theorem run_advance_short {count : Nat} (short : state.cursor.available < count) :
    (advance count).run state =
      .breached (.advancePastEnd count state.cursor.available) state := by
  have refused : decide (count ≤ state.cursor.available) = false :=
    decide_eq_false_iff_not.mpr (Nat.not_le.mpr short)
  rw [advance, run_bind_of_ok (run_cursor state), refused, demand_false]
  rfl

theorem takesOctets_takeRaw (count : Nat) : TakesOctets (takeRaw count) count id where
  takes := by
    intro state valid fits
    have demanded : decide (count ≤ state.cursor.available) = true := decide_eq_true fits
    have inside : count ≤ state.cursor.remaining.length := by
      rw [Cursor.length_remaining]
      exact fits
    rw [takeRaw, run_bind_of_ok (run_cursor state), demanded, demand_true, pure_bind,
      run_bind_of_ok (run_remaining_of_valid valid), State.pass_zero,
      run_bind_of_ok (run_firstOf inside state), run_bind_of_ok (run_advance_of_valid valid fits)]
    rfl
  refuses := by
    intro state short
    have refused : decide (count ≤ state.cursor.available) = false :=
      decide_eq_false_iff_not.mpr (Nat.not_le.mpr short)
    rw [takeRaw, run_bind_of_ok (run_cursor state), refused, demand_false]
    rfl

theorem takesOctets_takeInteger (format : BinaryFormat) :
    TakesOctets (takeInteger format) format.width.octets format.decode where
  takes := by
    intro state valid fits
    rw [takeInteger, run_bind_of_ok ((takesOctets_takeRaw _).takes valid fits)]
    rfl
  refuses := by
    intro state short
    rw [takeInteger, run_bind, (takesOctets_takeRaw _).refuses short]
    rfl

theorem fillsOutput_fillOutput : FillsOutput fillOutput where
  fills := by
    intro state valid fits
    have length : (state.cursor.remaining.take state.output.length).length =
        state.output.length := by
      rw [List.length_take, Cursor.length_remaining]
      exact Nat.min_eq_left fits
    have room : state.output.length ≤ (state.pass state.output.length).output.length :=
      Nat.le_refl _
    have taken := (takesOctets_takeRaw state.output.length).takes valid fits
    rw [fillOutput, run_bind_of_ok (run_output state), run_bind_of_ok taken]
    rw [id, run_copyToOutput room length, State.output_pass, List.drop_length, List.append_nil]
    rfl
  refuses := by
    intro state short
    rw [fillOutput, run_bind_of_ok (run_output state), run_bind,
      (takesOctets_takeRaw _).refuses short]
    rfl

end Scan

namespace RawRequest

/-- How many octets the request demands. -/
def demand : RawRequest → Nat
  | advance count => count
  | fill output => output.length
  | integer format => format.width.octets
  | _ => 0

/-- A request takes the token before the rest, gives the reply and leaves the output buffer. -/
inductive Takes : RawRequest → (token rest : Bytes) → Reply → (output : Bytes) → Prop where
  | remaining {rest : Bytes} : Takes .remaining [] rest (.count rest.length) []
  | hasRemaining {rest : Bytes} : Takes .hasRemaining [] rest (.truth (0 < rest.length)) []
  | chunk {rest : Bytes} : Takes .chunk [] rest (.slice rest) []
  | advance {token rest : Bytes} : Takes (.advance token.length) token rest .nothing []
  | fill {output token rest : Bytes} (length : token.length = output.length) :
      Takes (.fill output) token rest .nothing token
  | integer {format : BinaryFormat} {token rest : Bytes}
      (length : token.length = format.width.octets) :
      Takes (.integer format) token rest (.integer (format.decode token)) []

/-- The state that the scan of a request starts in. -/
def start (request : RawRequest) (cursor : Cursor) : Scan.State where
  cursor := cursor
  output := request.output

@[simp] theorem cursor_start (request : RawRequest) (cursor : Cursor) :
    (request.start cursor).cursor = cursor := rfl

/-- The outcome is one that the request may have on the cursor. -/
inductive Ends (request : RawRequest) (cursor : Cursor) : Scan.Outcome Reply → Prop where
  | breached {breach : Breach} (short : cursor.available < request.demand) :
      Ends request cursor (.breached breach (request.start cursor))
  | took {token rest output : Bytes} {reply : Reply} (length : token.length = request.demand)
      (unread : cursor.remaining = token ++ rest)
      (takes : request.Takes token rest reply output) :
      Ends request cursor
        (.took reply token.length { cursor := cursor, output := output } [])

variable {cursor : Cursor} {request : RawRequest}

theorem Ends.of_breached {breach : Breach} (short : cursor.available < request.demand)
    (ran : request.run cursor = .breached breach (request.start cursor)) :
    request.Ends cursor (request.run cursor) := by
  rw [ran]
  exact .breached short

theorem Ends.of_took {token rest output : Bytes} {reply : Reply}
    (length : token.length = request.demand) (unread : cursor.remaining = token ++ rest)
    (takes : request.Takes token rest reply output)
    (ran : request.run cursor =
      .took reply token.length { cursor := cursor, output := output } []) :
    request.Ends cursor (request.run cursor) := by
  rw [ran]
  exact .took length unread takes

theorem Ends.state_of_error {outcome : Scan.Outcome Reply} (ends : request.Ends cursor outcome)
    {failure : Failure} (failed : outcome.result = .error failure) :
    outcome.state = request.start cursor := by
  cases ends with
  | breached short => rfl
  | took length unread takes => cases failed

/-- A success takes a token off the unread octets. -/
theorem Ends.exists_token {outcome : Scan.Outcome Reply} (ends : request.Ends cursor outcome)
    {reply : Reply} (succeeds : outcome.result = .ok reply) :
    ∃ token rest, cursor.remaining = token ++ rest ∧
      outcome.state.cursor = cursor.pass token.length ∧
      request.Takes token rest reply outcome.state.output := by
  cases ends with
  | breached short => cases succeeds
  | took length unread takes =>
      cases succeeds
      exact ⟨_, _, unread, rfl, takes⟩

/-- Every request on a valid cursor takes what it demands, or there is too little. -/
theorem ends (request : RawRequest) (valid : cursor.Valid) :
    request.Ends cursor (request.run cursor) := by
  have validStart : (request.start cursor).cursor.Valid := valid
  cases request with
  | remaining =>
      have takes : Takes .remaining [] cursor.remaining (.count cursor.remaining.length) [] :=
        .remaining
      rw [Cursor.length_remaining] at takes
      exact .of_took rfl rfl takes (Scan.run_map_of_took rfl)
  | hasRemaining =>
      have takes : Takes .hasRemaining [] cursor.remaining
          (.truth (0 < cursor.remaining.length)) [] := .hasRemaining
      rw [Cursor.length_remaining] at takes
      exact .of_took rfl rfl takes (Scan.run_map_of_took rfl)
  | chunk =>
      exact .of_took rfl rfl .chunk
        (Scan.run_map_of_took (Scan.run_remaining_of_valid validStart))
  | advance count =>
      rcases Nat.lt_or_ge cursor.available count with short | fits
      · exact .of_breached short (Scan.run_map_of_breached (Scan.run_advance_short short))
      · rcases Cursor.exists_slice fits with ⟨token, rest, unread, rfl, -⟩
        exact .of_took rfl unread .advance
          (Scan.run_map_of_took (Scan.run_advance_of_valid validStart fits))
  | fill output =>
      rcases Nat.lt_or_ge cursor.available output.length with short | fits
      · exact .of_breached short
          (Scan.run_map_of_breached (Scan.fillsOutput_fillOutput.refuses short))
      · rcases Cursor.exists_slice fits with ⟨token, rest, unread, length, tokenEq⟩
        have scanned : Scan.fillOutput.run ((fill output).start cursor) = .took () output.length
            { cursor := cursor, output := cursor.remaining.take output.length } [] :=
          Scan.fillsOutput_fillOutput.fills validStart fits
        rw [tokenEq, ← length] at scanned
        exact .of_took length unread (.fill length) (Scan.run_map_of_took scanned)
  | integer format =>
      rcases Nat.lt_or_ge cursor.available format.width.octets with short | fits
      · have shortStart : (start (integer format) cursor).cursor.available < format.width.octets :=
          short
        have refused := (Scan.takesOctets_takeInteger format).refuses shortStart
        exact .of_breached short (Scan.run_map_of_breached refused)
      · rcases Cursor.exists_slice fits with ⟨token, rest, unread, length, tokenEq⟩
        have scanned := (Scan.takesOctets_takeInteger format).takes validStart fits
        rw [cursor_start, tokenEq, ← length] at scanned
        exact .of_took length unread (.integer length) (Scan.run_map_of_took scanned)

end RawRequest

end ByteCursor
