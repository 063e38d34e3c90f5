import ByteCursor.Proofs.Call.Ends

/-!
# Results of calls

A call whose arguments are not objected to passes over some octets and gives a reply, or it misses
and changes nothing.  The two exclude each other, so the texts on which a call passes are also the
ones on which it does not miss.
-/

namespace ByteCursor.Call

/-- The call succeeds on the cursor with the reply and passes over so many octets. -/
structure Passes (call : Call) (cursor : Cursor) (reply : Reply) (count : Nat) : Prop where
  result : (call.run cursor).result = .ok reply
  cursor : (call.run cursor).state.cursor = cursor.pass count

/-- The call succeeds on the cursor with an integer and leaves it at the position. -/
structure Delivers (call : Call) (cursor : Cursor) (value : Int) (position : Nat) :
    Prop where
  result : (call.run cursor).result = .ok (.integer value)
  cursor : (call.run cursor).state.cursor = cursor.seek position

/-- The call fails on the cursor under its own name, and neither the cursor nor the output buffer
has changed. -/
structure Misses (call : Call) (cursor : Cursor) : Prop where
  result : (call.run cursor).result = .error (.error (.parse call.name cursor.position))
  state : (call.run cursor).state = call.start cursor

theorem Misses.unmoved {call : Call} {cursor : Cursor} (misses : call.Misses cursor) :
    (call.run cursor).state.cursor = cursor := by
  rw [misses.state, cursor_start]

variable {call : Call} {cursor : Cursor} {reply found : Reply} {count size : Nat}
  {output : Bytes} {events : List Event}

/-! ## From outcomes -/

theorem passes_of_took
    (ran : call.run cursor = .took reply count { cursor := cursor, output := output } events) :
    call.Passes cursor reply count where
  result := congrArg Scan.Outcome.result ran
  cursor := congrArg (fun outcome => outcome.state.cursor) ran

theorem misses_of_missed
    (ran : call.run cursor = .missed call.name (call.start cursor) events) :
    call.Misses cursor where
  result := congrArg Scan.Outcome.result ran
  state := congrArg Scan.Outcome.state ran

/-- A call has one reply and passes over one number of octets. -/
theorem Passes.unique (first : call.Passes cursor reply count)
    (second : call.Passes cursor found size) : reply = found ∧ count = size := by
  have replies := first.result.symm.trans second.result
  have positions := congrArg Cursor.position (first.cursor.symm.trans second.cursor)
  rw [Cursor.position_pass, Cursor.position_pass] at positions
  cases replies
  exact ⟨rfl, Nat.add_left_cancel positions⟩

/-- What a call passes over is its token. -/
theorem Passes.exists_token (passes : call.Passes cursor reply count) (valid : cursor.Valid) :
    ∃ token rest output, cursor.remaining = token ++ rest ∧ count = token.length ∧
      call.Takes token rest reply output := by
  obtain ⟨token, rest, unread, moved, takes⟩ := (call.ends valid).exists_token passes.result
  have positions := congrArg Cursor.position (passes.cursor.symm.trans moved)
  rw [Cursor.position_pass, Cursor.position_pass] at positions
  exact ⟨token, rest, _, unread, Nat.add_left_cancel positions, takes⟩

theorem passes_iff_of_took
    (ran : call.run cursor = .took found size { cursor := cursor, output := output } events) :
    call.Passes cursor reply count ↔ reply = found ∧ count = size := by
  constructor
  · intro passes
    exact passes.unique (passes_of_took ran)
  · rintro ⟨rfl, rfl⟩
    exact passes_of_took ran

theorem delivers_iff_of_took {found : Int} {value : Int} {position : Nat}
    (ran : call.run cursor = .took (.integer found) count (call.start cursor) events) :
    call.Delivers cursor value position ↔
      value = found ∧ position = cursor.position + count := by
  constructor
  · intro delivers
    have result := delivers.result
    have moved := congrArg Cursor.position delivers.cursor
    rw [ran] at result moved
    cases result
    exact ⟨rfl, moved.symm⟩
  · rintro ⟨rfl, rfl⟩
    constructor
    · rw [ran]; rfl
    · rw [ran]; rfl

theorem not_delivers_of_missed {what : String} {value : Int} {position : Nat}
    (ran : call.run cursor = .missed what (call.start cursor) events) :
    ¬ call.Delivers cursor value position := by
  intro delivers
  have result := delivers.result
  rw [ran] at result
  cases result

/-! ## Passing or missing -/

theorem Misses.not_passes (misses : call.Misses cursor) : ¬ call.Passes cursor reply count := by
  intro passes
  have result := misses.result
  rw [passes.result] at result
  cases result

theorem passes_or_misses (valid : cursor.Valid) (accepted : call.objection? = none) :
    (∃ reply count, call.Passes cursor reply count) ∨ call.Misses cursor := by
  have ends := call.ends valid
  generalize ran : call.run cursor = outcome at ends
  cases ends with
  | refused objection =>
      rw [accepted] at objection
      cases objection
  | missed _ => exact .inr (misses_of_missed ran)
  | took _ unread takes => exact .inl ⟨_, _, passes_of_took ran⟩

/-- Where a call does not pass it misses. -/
theorem misses_iff (valid : cursor.Valid) (accepted : call.objection? = none) :
    call.Misses cursor ↔ ¬ ∃ reply count, call.Passes cursor reply count := by
  constructor
  · rintro misses ⟨reply, count, passes⟩
    exact misses.not_passes passes
  · intro never
    exact (passes_or_misses valid accepted).resolve_left never

end ByteCursor.Call
