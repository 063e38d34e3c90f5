import ByteCursor.Proofs.Session.Reachable

/-!
# What the events of calls tell

The events of a call are those of its ending: a success tells of no layer that went back, refused
arguments tell of nothing, and the last layer that goes back is the one that the error names.
-/

namespace ByteCursor.Call

variable {cursor : Cursor} {call : Call}

/-- Only calls that look for no mark object to their arguments. -/
theorem markEvents_of_objection {what : String} (objection : call.objection? = some what) :
    call.markEvents cursor = [] := by
  cases call with
  | readHex type order => cases objection
  | _ => rfl

theorem not_rolledBack_mem_markEvents (what : String) (offset : Nat) :
    Event.rolledBack what offset ∉ call.markEvents cursor := by
  cases call with
  | readHex type order =>
      intro member
      rw [markEvents] at member
      split at member
      next => cases List.mem_singleton.mp member
      next => exact List.not_mem_nil member
  | _ => exact List.not_mem_nil

/-- A call with layers leaves no event of a search. -/
theorem searchEvents_eq_nil (layered : call.layers ≠ []) : call.searchEvents cursor = [] := by
  cases call with
  | skipPattern | skipPastPattern | copyUntil => exact absurd rfl layered
  | _ => rfl

theorem IsSilent.events_eq_nil (silent : call.IsSilent) (cursor : Cursor) :
    call.markEvents cursor = [] ∧ call.missEvents cursor = [] := by
  cases call with
  | readChar | readByte | copySlice | readSlice | readSliceUntil | trimSpaces => exact ⟨rfl, rfl⟩
  | _ => exact silent.elim

/-- The outermost layer has the name of the call. -/
theorem getLast?_layers (layered : call.layers ≠ []) : call.layers.getLast? = some call.name := by
  cases call with
  | readDecimal type => cases type <;> rfl
  | readHex type order => cases type <;> cases order <;> rfl
  | readBool | skipByte | skipPastByte | readTextUntil => rfl
  | _ => exact absurd rfl layered

/-- Around a word there is a layer that has the name of the call. -/
theorem getLast?_tail_layers {word : Call} (wordEq : call.word? = some word)
    (around : call ≠ word) : call.layers.tail.getLast? = some call.name := by
  cases call with
  | readDecimal type =>
      cases wordEq
      cases type with
      | u32 | i32 => exact absurd rfl around
      | u16 | u8 | i16 | i8 => rfl
  | readHex type order =>
      cases wordEq
      cases order with
      | big =>
          cases type with
          | u32 => exact absurd rfl around
          | u16 | u8 | i32 | i16 | i8 => rfl
      | little => cases type <;> rfl
  | _ => cases wordEq

/-- A call with layers that fails goes back in its own layer at last. -/
theorem getLast?_failedLayers (fails : (call.run cursor).result.isOk = false)
    (layered : call.layers ≠ []) : (call.failedLayers cursor).getLast? = some call.name := by
  rw [failedLayers]
  split
  next word wordEq =>
      split
      next succeeds =>
          apply getLast?_tail_layers wordEq
          rintro rfl
          rw [fails] at succeeds
          cases succeeds
      next => exact getLast?_layers layered
  next => exact getLast?_layers layered

namespace Ends

variable {outcome : Scan.Outcome Reply}

theorem events_eq (ends : call.Ends cursor outcome) :
    outcome.events =
      call.markEvents cursor ++
        match outcome.result with
        | .error (.error (.parse _ _)) => call.missEvents cursor
        | _ => [] := by
  cases ends with
  | refused objection =>
      rw [markEvents_of_objection objection]
      rfl
  | missed => rfl
  | took => exact (List.append_nil _).symm

theorem getLast?_events (ends : call.Ends cursor outcome) {what : String} {offset : Nat}
    (misses : outcome.result = .error (.error (.parse what offset))) (layered : call.layers ≠ [])
    (named : (call.failedLayers cursor).getLast? = some call.name) :
    outcome.events.getLast? = some (.rolledBack what offset) := by
  cases ends with
  | refused objection => cases misses
  | missed =>
      cases misses
      change (call.markEvents cursor ++ call.missEvents cursor).getLast? = _
      rw [missEvents, searchEvents_eq_nil layered, List.append_nil, List.getLast?_append,
        Scan.rollbacks, List.getLast?_map, named]
      rfl
  | took => cases misses

theorem not_rolledBack_mem (ends : call.Ends cursor outcome) {reply : Reply}
    (succeeds : outcome.result = .ok reply) (what : String) (offset : Nat) :
    Event.rolledBack what offset ∉ outcome.events := by
  cases ends with
  | refused objection => cases succeeds
  | missed => cases succeeds
  | took => exact not_rolledBack_mem_markEvents what offset

theorem events_of_refused (ends : call.Ends cursor outcome) {what : String}
    (refuses : outcome.result = .error (.error (.invalidArgument what))) :
    outcome.events = [] := by
  cases ends with
  | refused objection => rfl
  | missed => cases refuses
  | took => cases refuses

theorem events_of_isSilent (ends : call.Ends cursor outcome) (silent : call.IsSilent) :
    outcome.events = [] := by
  rcases silent.events_eq_nil cursor with ⟨unmarked, quiet⟩
  cases ends with
  | refused _ => rfl
  | missed =>
      change call.markEvents cursor ++ call.missEvents cursor = []
      rw [unmarked, quiet, List.append_nil]
  | took => exact unmarked

end Ends

/-- The events of a call are told in the order in which they happen: the mark that is missing
behind the spaces, then the layers that went back or the search that failed.  The last layer that
goes back is the one that the error names, a success tells of no layer, and neither refused
arguments nor the calls without layers and searches tell of anything. -/
theorem events_follow_layers (reachable : cursor.Reachable) (call : Call) :
    let outcome := call.run cursor
    (outcome.events =
      call.markEvents cursor ++
        match outcome.result with
        | .error (.error (.parse _ _)) => call.missEvents cursor
        | _ => []) ∧
      (∀ what offset, outcome.result = .error (.error (.parse what offset)) →
        call.layers ≠ [] → outcome.events.getLast? = some (.rolledBack what offset)) ∧
      (∀ reply, outcome.result = .ok reply →
        ∀ what offset, Event.rolledBack what offset ∉ outcome.events) ∧
      (∀ what, outcome.result = .error (.error (.invalidArgument what)) → outcome.events = []) ∧
      (call.IsSilent → outcome.events = []) := by
  intro outcome
  have ends : call.Ends cursor outcome := call.ends reachable.valid
  refine ⟨ends.events_eq, ?last, ?success, ?refusal, ends.events_of_isSilent⟩
  case last =>
    intro what offset misses layered
    have fails : outcome.result.isOk = false := by
      rw [misses]
      rfl
    exact ends.getLast?_events misses layered (getLast?_failedLayers fails layered)
  case success =>
    intro reply succeeds what offset
    exact ends.not_rolledBack_mem succeeds what offset
  case refusal =>
    intro what refuses
    exact ends.events_of_refused refuses

/-- Five digits without a mark are a word but no number of 16 bits: behind the two spaces the
mark is missed, and the two layers around the word go back to where the read began. -/
theorem events_follow_layers_overflow :
    let cursor : Cursor :=
      { bytes := [0x20, 0x20, 0x31, 0x32, 0x33, 0x34, 0x35], position := 0, options := {} }
    let call : Call := .readHex .i16 .little
    cursor.Reachable ∧
      (call.run cursor).result = .error (.error (.parse "i16 le" 0)) ∧ call.layers ≠ [] ∧
      (call.run cursor).events =
        [.substringNotAtCursor 2, .rolledBack "i16 be" 0, .rolledBack "i16 le" 0] ∧
      (call.run cursor).events.getLast? = some (.rolledBack "i16 le" 0) := by
  intro cursor call
  have reachable : cursor.Reachable := .ofText (by decide) (by decide) {}
  have follows := events_follow_layers reachable call
  have missed : (call.run cursor).result = .error (.error (.parse "i16 le" 0)) := by decide
  have layered : call.layers ≠ [] := List.cons_ne_nil _ _
  have events := follows.1
  rw [missed] at events
  have expected : call.markEvents cursor ++ call.missEvents cursor =
      [.substringNotAtCursor 2, .rolledBack "i16 be" 0, .rolledBack "i16 le" 0] := by decide
  exact ⟨reachable, missed, layered, events.trans expected,
    follows.2.1 "i16 le" 0 missed layered⟩

end ByteCursor.Call
