import ByteCursor.Proofs.Session.Transaction

/-!
# Runs conserve the octets

A run without exchanged cursors passes over the octets from left to right.  Each step that
succeeds passes over one segment, which is the token of its call, and the segments follow each
other without a gap or an overlap.

A call that succeeds makes progress, with two exceptions that may take no octets.  So a run has
no more such calls than octets.
-/

namespace ByteCursor

namespace Call

/-- The reply tells that the call took nothing: no spaces, or a slice of no octets. -/
def isIdle : Call → Reply → Bool
  | .trimSpaces, .count 0 => true
  | .readSlice 0, _ => true
  | _, _ => false

/-- A token is empty only if the call is idle. -/
theorem Takes.ne_nil {call : Call} {token rest output : Bytes} {reply : Reply}
    (takes : call.Takes token rest reply output) (busy : call.isIdle reply = false) :
    token ≠ [] := by
  cases takes with
  | readDecimal splits => exact List.append_ne_nil_of_right_ne_nil _ splits.digits_ne_nil
  | readHex _ nonempty => exact List.append_ne_nil_of_right_ne_nil _ nonempty
  | readChar | readByte | readBool | skipByte => exact List.cons_ne_nil _ _
  | skipPastByte | copyUntil | readSliceUntil | readTextUntil => exact List.concat_ne_nil _ _
  | skipPattern nonempty => exact nonempty
  | skipPastPattern nonempty => exact List.append_ne_nil_of_right_ne_nil _ nonempty
  | copySlice nonempty => exact nonempty
  | readSlice =>
      rintro rfl
      cases busy
  | @trimSpaces count _ _ =>
      cases count with
      | zero => cases busy
      | succ count => exact List.cons_ne_nil _ _

end Call

namespace Session

/-- The octets that a step passes over. -/
def segment (session : Session) (step : Step) : Bytes :=
  (session.cursor.bytes.take (session.after step).cursor.position).drop session.cursor.position

/-- The octets that the steps of a run pass over, for each step that succeeds. -/
def segments (session : Session) : List Step → List Bytes
  | [] => []
  | step :: rest =>
      if (session.answer step).succeeds then
        session.segment step :: (session.after step).segments rest
      else (session.after step).segments rest

/-- The step is a call that succeeds and takes something. -/
def progresses (session : Session) : Step → Bool
  | .call call =>
      match (session.answer (.call call)).result with
      | .ok reply => !call.isIdle reply
      | .error _ => false
  | _ => false

/-- The number of calls in a run that succeed and take something. -/
def progressCount (session : Session) : List Step → Nat
  | [] => 0
  | step :: rest =>
      (session.progresses step).toNat + (session.after step).progressCount rest

variable {session : Session} {step : Step}

/-- The unread octets before a step are its segment and the unread octets after it. -/
theorem remaining_eq_segment_append (valid : session.Valid) (forward : step.IsForward) :
    session.cursor.remaining = session.segment step ++ (session.after step).cursor.remaining := by
  rcases exists_pass valid forward with ⟨count, -, moved⟩
  rw [segment, moved, Cursor.position_pass, ← Cursor.take_remaining, Cursor.remaining_pass,
    List.take_append_drop]

/-- The unread octets before a run are its segments and the unread octets after it. -/
theorem remaining_eq_segments_append (valid : session.Valid) {steps : List Step}
    (forward : ∀ step ∈ steps, step.IsForward) :
    session.cursor.remaining =
      (session.segments steps).flatten ++ (session.run steps).2.cursor.remaining := by
  induction steps generalizing session with
  | nil => rfl
  | cons step rest ih =>
      rw [List.forall_mem_cons] at forward
      have later := ih (valid.after step) forward.2
      rw [segments, run_cons]
      cases outcome : (session.answer step).succeeds with
      | true =>
          rw [if_pos rfl, List.flatten_cons, List.append_assoc, ← later]
          exact remaining_eq_segment_append valid forward.1
      | false =>
          have unmoved := (similar_after valid outcome).cursor
          rw [if_neg Bool.false_ne_true, ← later, unmoved]

theorem flatten_segments (valid : session.Valid) {steps : List Step}
    (forward : ∀ step ∈ steps, step.IsForward) {count : Nat}
    (moved : (session.run steps).2.cursor = session.cursor.pass count) :
    (session.segments steps).flatten = session.cursor.remaining.take count := by
  have split := remaining_eq_segments_append valid forward
  rw [moved, Cursor.remaining_pass] at split
  exact (List.append_cancel_right ((List.take_append_drop _ _).trans split)).symm

/-! ## Tokens of a run -/

/-- The segment of a step that passes over a token is the token. -/
theorem segment_eq_token {token rest : Bytes} (unread : session.cursor.remaining = token ++ rest)
    (moved : (session.after step).cursor = session.cursor.pass token.length) :
    session.segment step = token ∧ (session.after step).cursor.remaining = rest := by
  constructor
  · rw [segment, moved, Cursor.position_pass, ← Cursor.take_remaining, unread, List.take_left]
  · rw [moved, Cursor.remaining_pass, unread, List.drop_left]

/-- The segment of a successful call is its token. -/
theorem takes_of_ok (valid : session.Valid) {call : Call} {reply : Reply}
    (succeeds : (session.answer (.call call)).result = .ok reply) :
    call.Takes (session.segment (.call call)) (session.after (.call call)).cursor.remaining
      reply (session.answer (.call call)).output := by
  rcases (call.ends valid.cursor).exists_token succeeds with ⟨token, rest, unread, moved, takes⟩
  have parts : session.segment (.call call) = token ∧ _ := segment_eq_token unread moved
  rw [parts.1, parts.2]
  exact takes

/-- The segment of a successful raw request is its token. -/
theorem takes_of_raw_ok (valid : session.Valid) {request : RawRequest} {reply : Reply}
    (succeeds : (session.answer (.raw request)).result = .ok reply) :
    request.Takes (session.segment (.raw request))
      (session.after (.raw request)).cursor.remaining reply
      (session.answer (.raw request)).output := by
  rcases (request.ends valid.cursor).exists_token succeeds with
    ⟨token, rest, unread, moved, takes⟩
  have parts : session.segment (.raw request) = token ∧ _ := segment_eq_token unread moved
  rw [parts.1, parts.2]
  exact takes

theorem position_after (valid : session.Valid) (forward : step.IsForward) :
    (session.after step).cursor.position =
      session.cursor.position + (session.segment step).length := by
  rcases exists_pass valid forward with ⟨count, fits, moved⟩
  have length : (session.segment step).length = count := by
    rw [segment, moved, Cursor.position_pass, ← Cursor.take_remaining, List.length_take,
      Cursor.length_remaining]
    exact Nat.min_eq_left fits
  rw [length, moved, Cursor.position_pass]

theorem available_eq_add (valid : session.Valid) (forward : step.IsForward) :
    session.cursor.available =
      (session.segment step).length + (session.after step).cursor.available := by
  rw [← Cursor.length_remaining, remaining_eq_segment_append valid forward, List.length_append,
    Cursor.length_remaining]

/-! ## Progress -/

theorem exists_of_progresses (progresses : session.progresses step = true) :
    ∃ call reply, step = .call call ∧ (session.answer step).result = .ok reply ∧
      call.isIdle reply = false := by
  cases step with
  | call call =>
      rw [Session.progresses] at progresses
      split at progresses
      next reply succeeds => exact ⟨call, reply, rfl, succeeds, by simpa using progresses⟩
      next => cases progresses
  | raw | query | save | swap | restore | resetStatus => cases progresses

/-- A call that makes progress passes over an octet at least. -/
theorem segment_ne_nil (valid : session.Valid) (progresses : session.progresses step = true) :
    session.segment step ≠ [] := by
  rcases exists_of_progresses progresses with ⟨call, reply, rfl, succeeds, busy⟩
  exact (takes_of_ok valid succeeds).ne_nil busy

theorem toNat_progresses_le (valid : session.Valid) (step : Step) :
    (session.progresses step).toNat ≤ (session.segment step).length := by
  cases progresses : session.progresses step with
  | false => exact Nat.zero_le _
  | true => exact List.length_pos_iff.mpr (segment_ne_nil valid progresses)

/-- Every call that makes progress uses up an octet. -/
theorem progressCount_add_available_le (valid : session.Valid) {steps : List Step}
    (forward : ∀ step ∈ steps, step.IsForward) :
    session.progressCount steps + (session.run steps).2.cursor.available ≤
      session.cursor.available := by
  induction steps generalizing session with
  | nil => exact Nat.le_of_eq (Nat.zero_add _)
  | cons step rest ih =>
      rw [List.forall_mem_cons] at forward
      have later := ih (valid.after step) forward.2
      have used := available_eq_add valid forward.1
      have counted := toNat_progresses_le valid step
      rw [progressCount, run_cons]
      change _ + ((session.after step).run rest).2.cursor.available ≤ _
      omega

/-- Repeating a call comes to an end before it has used up all unread octets. -/
theorem repetition_ends (valid : session.Valid) (call : Call) :
    ∃ count ≤ session.cursor.available,
      (∀ earlier < count,
        (session.run (List.replicate earlier (.call call))).2.progresses (.call call) = true) ∧
      (session.run (List.replicate count (.call call))).2.progresses (.call call) = false := by
  -- The induction is on the unread octets: every repetition that goes on uses up some of them.
  generalize size : session.cursor.available = available
  induction available using Nat.strongRecOn generalizing session with
  | ind available ih =>
      cases progresses : session.progresses (.call call) with
      | false =>
          exact ⟨0, Nat.zero_le _, fun _ impossible => absurd impossible (Nat.not_lt_zero _),
            progresses⟩
      | true =>
          have forward : (Step.call call).IsForward := trivial
          have used := available_eq_add valid forward
          have positive := List.length_pos_iff.mpr (segment_ne_nil valid progresses)
          obtain ⟨count, fits, goesOn, ends⟩ :=
            ih _ (by omega) (valid.after (.call call)) rfl
          refine ⟨count + 1, by omega, ?_, ends⟩
          intro earlier before
          cases earlier with
          | zero => exact progresses
          | succ earlier => exact goesOn earlier (Nat.lt_of_succ_lt_succ before)

/-- A call that is never idle goes on as long as it succeeds. -/
theorem succeeds_eq_progresses {call : Call} (notTrim : call ≠ .trimSpaces)
    (notNone : call ≠ .readSlice 0) :
    (session.answer (.call call)).succeeds = session.progresses (.call call) := by
  have busy (reply : Reply) : call.isIdle reply = false := by
    rw [Call.isIdle.eq_def]
    split
    next => exact absurd rfl notTrim
    next => exact absurd rfl notNone
    next => rfl
  rw [Answer.succeeds, progresses]
  cases (session.answer (.call call)).result with
  | error failure => rfl
  | ok reply =>
      change true = !call.isIdle reply
      rw [busy reply]
      rfl

/-- The segments of a run from an opened buffer are the octets up to the position. -/
theorem flatten_segments_of_opens {buffer : Bytes} {length : Nat} {options : Options}
    {start : Cursor} (isWord : buffer.length < sizeLimit)
    (opens : Cursor.ofBuffer buffer length options = .ok start) {steps : List Step}
    (forward : ∀ step ∈ steps, step.IsForward) :
    (segments { cursor := start } steps).flatten =
      buffer.take (run { cursor := start } steps).2.cursor.position := by
  have valid := (Reachable.opened isWord opens).valid
  rcases exists_pass_run valid forward with ⟨count, fits, moved⟩
  rcases Cursor.eq_of_ofBuffer opens with ⟨rfl, -⟩
  have inside : count ≤ length := Nat.le_trans fits (List.length_take_le _ _)
  rw [flatten_segments valid forward moved, moved, Cursor.position_pass, Nat.zero_add]
  change (buffer.take length).take count = buffer.take count
  rw [List.take_take, Nat.min_eq_left inside]

/-- A run passes over the octets in segments, each of which is the token of its step.  A call
that succeeds makes progress unless it is idle, so there are at most as many of them as octets,
and repeating a call ends before it has used up the unread octets. -/
theorem runs_conserve_octets {buffer : Bytes} {length : Nat} {options : Options}
    {start : Cursor} (isWord : buffer.length < sizeLimit)
    (opens : Cursor.ofBuffer buffer length options = .ok start) {steps : List Step}
    (forward : ∀ step ∈ steps, step.IsForward) :
    let session : Session := { cursor := start }
    let last := (session.run steps).2
    (session.segments steps).flatten = buffer.take last.cursor.position ∧
      (∀ before after call reply, steps = before ++ .call call :: after →
        let here := (session.run before).2
        let next := here.after (.call call)
        (here.answer (.call call)).result = .ok reply →
          call.Takes (here.segment (.call call)) next.cursor.remaining reply
              (here.answer (.call call)).output ∧
            (call.isIdle reply = false → here.cursor.position < next.cursor.position)) ∧
      (∀ before after request reply, steps = before ++ .raw request :: after →
        let here := (session.run before).2
        (here.answer (.raw request)).result = .ok reply →
          request.Takes (here.segment (.raw request))
            (here.after (.raw request)).cursor.remaining reply
            (here.answer (.raw request)).output) ∧
      session.progressCount steps ≤ length ∧
      ∀ call, ∃ count ≤ last.cursor.available,
        let repeated (times : Nat) : Session :=
          (last.run (List.replicate times (.call call))).2
        (∀ earlier < count, (repeated earlier).progresses (.call call) = true) ∧
          (repeated count).progresses (.call call) = false ∧
          (call ≠ .trimSpaces → call ≠ .readSlice 0 →
            ((repeated count).answer (.call call)).succeeds = false) := by
  intro session last
  have valid : session.Valid := (Reachable.opened isWord opens).valid
  refine ⟨flatten_segments_of_opens isWord opens forward, ?_, ?_, ?_, ?_⟩
  · intro before _ call reply _ here next succeeds
    have hereValid : here.Valid := valid.run before
    have takes := takes_of_ok hereValid succeeds
    refine ⟨takes, fun busy => ?_⟩
    have goesForward : (Step.call call).IsForward := trivial
    have moved := position_after hereValid goesForward
    have positive := List.length_pos_iff.mpr (takes.ne_nil busy)
    change here.cursor.position < (here.after (.call call)).cursor.position
    omega
  · intro before _ request reply _ here succeeds
    exact takes_of_raw_ok (valid.run before) succeeds
  · have counted := progressCount_add_available_le valid forward
    rcases Cursor.eq_of_ofBuffer opens with ⟨rfl, -⟩
    have inside : session.cursor.available ≤ length := List.length_take_le _ _
    omega
  · intro call
    rcases repetition_ends (valid.run steps) call with ⟨count, fits, goesOn, ends⟩
    refine ⟨count, fits, goesOn, ends, fun notTrim notNone => ?_⟩
    rw [succeeds_eq_progresses notTrim notNone]
    exact ends

/-- A space, a digit and an octet of the raw view are all the octets of the text; the comma is
looked for too early and takes nothing. -/
theorem runs_conserve_octets_list :
    let buffer : Bytes := [0x20, 0x37, 0x2c, 0x00]
    let start : Cursor := { bytes := [0x20, 0x37, 0x2c], position := 0, options := {} }
    let steps : List Step :=
      [.call .trimSpaces, .call (.skipByte 0x2c), .call .readByte, .raw (.advance 1)]
    buffer.length < sizeLimit ∧ Cursor.ofBuffer buffer 3 {} = .ok start ∧
      (∀ step ∈ steps, step.IsForward) ∧
      segments { cursor := start } steps = [[0x20], [0x37], [0x2c]] ∧
      (segments { cursor := start } steps).flatten = buffer.take 3 ∧
      Call.trimSpaces.Takes [0x20] [0x37, 0x2c] (.count 1) [] ∧
      Call.readByte.Takes [0x37] [0x2c] (.byte 0x37) [] ∧
      RawRequest.Takes (.advance 1) [0x2c] [] .nothing [] ∧
      progressCount { cursor := start } steps = 2 ∧
      progressCount { cursor := start } steps ≤ 3 := by
  intro buffer start steps
  have isWord : buffer.length < sizeLimit := by decide
  have opens : Cursor.ofBuffer buffer 3 {} = .ok start := rfl
  have forward : ∀ step ∈ steps, step.IsForward := by
    simp [steps, Step.IsForward]
  have segmentsEq : segments { cursor := start } steps = [[0x20], [0x37], [0x2c]] := by decide
  have progresses : progressCount { cursor := start } steps = 2 := by decide
  have positionEq : (run { cursor := start } steps).2.cursor.position = 3 := by decide
  obtain ⟨flattened, tokens, rawTokens, counted, -⟩ := runs_conserve_octets isWord opens forward
  rw [positionEq] at flattened
  have spaces : Call.trimSpaces.Takes [0x20] [0x37, 0x2c] (.count 1) [] := by
    convert (tokens [] _ .trimSpaces (.count 1) rfl (by decide)).1 using 1 <;> decide
  have digit : Call.readByte.Takes [0x37] [0x2c] (.byte 0x37) [] := by
    let before : List Step := [.call .trimSpaces, .call (.skipByte 0x2c)]
    convert (tokens before _ .readByte (.byte 0x37) rfl (by decide)).1 using 1 <;> decide
  have comma : RawRequest.Takes (.advance 1) [0x2c] [] .nothing [] := by
    let before : List Step := [.call .trimSpaces, .call (.skipByte 0x2c), .call .readByte]
    convert rawTokens before [] (.advance 1) .nothing rfl (by decide) using 1 <;> decide
  exact ⟨isWord, opens, forward, segmentsEq, flattened, spaces, digit, comma, progresses, counted⟩

end Session

end ByteCursor
