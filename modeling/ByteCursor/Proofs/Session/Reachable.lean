import ByteCursor.Proofs.Call.Ends
import ByteCursor.Proofs.Raw
import ByteCursor.Session

/-!
# Reachable sessions

A session starts with an opened buffer and goes through steps.  Calls and raw requests move its
cursor forward over unread octets or leave it, and the other steps exchange valid cursors, so
every cursor that a session meets is valid.
-/

namespace ByteCursor

variable {cursor : Cursor}

/-- A call moves the cursor over unread octets at most. -/
theorem Call.Ends.exists_pass {call : Call} {outcome : Scan.Outcome Reply}
    (ends : call.Ends cursor outcome) :
    ∃ count ≤ cursor.available, outcome.state.cursor = cursor.pass count := by
  cases ends with
  | refused objection => exact ⟨0, Nat.zero_le _, rfl⟩
  | missed accepted => exact ⟨0, Nat.zero_le _, rfl⟩
  | took accepted unread takes => exact ⟨_, Cursor.length_le_available unread, rfl⟩

/-- A raw request moves the cursor over unread octets at most. -/
theorem RawRequest.Ends.exists_pass {request : RawRequest} {outcome : Scan.Outcome Reply}
    (ends : request.Ends cursor outcome) :
    ∃ count ≤ cursor.available, outcome.state.cursor = cursor.pass count := by
  cases ends with
  | breached short => exact ⟨0, Nat.zero_le _, rfl⟩
  | took length unread takes => exact ⟨_, Cursor.length_le_available unread, rfl⟩

/-- The step goes on with the same cursor. -/
def Step.IsForward : Step → Prop
  | .swap | .restore => False
  | _ => True

namespace Session

/-- The cursor and all saved cursors are valid. -/
structure Valid (session : Session) : Prop where
  cursor : session.cursor.Valid
  saved : ∀ cursor ∈ session.saved, cursor.Valid

variable {session : Session}

/-- A session that starts on a valid cursor is valid. -/
theorem valid_start (valid : cursor.Valid) : Valid { cursor := cursor } := ⟨valid, by simp⟩

theorem exists_pass (valid : session.Valid) {step : Step} (forward : step.IsForward) :
    ∃ count ≤ session.cursor.available,
      (session.after step).cursor = session.cursor.pass count := by
  cases step with
  | call call => exact (call.ends valid.cursor).exists_pass
  | raw request => exact (request.ends valid.cursor).exists_pass
  | swap => exact forward.elim
  | restore => exact forward.elim
  | query | save | resetStatus => exact ⟨0, Nat.zero_le _, rfl⟩

/-- The cursor and the saved cursors. -/
def cursors (session : Session) : List Cursor := session.cursor :: session.saved

theorem valid_iff : session.Valid ↔ ∀ cursor ∈ session.cursors, cursor.Valid := by
  rw [cursors, List.forall_mem_cons]
  constructor
  · intro valid
    exact ⟨valid.cursor, valid.saved⟩
  · rintro ⟨cursor, saved⟩
    exact ⟨cursor, saved⟩

theorem cursors_swap_subset : session.swap.cursors ⊆ session.cursors := by
  rcases session with ⟨cursor, saved, status⟩
  cases saved with
  | nil => exact List.Subset.refl _
  | cons top rest =>
      intro member isMember
      simp only [swap, cursors, List.mem_cons] at isMember ⊢
      tauto

theorem cursors_restore_subset : session.restore.cursors ⊆ session.cursors := by
  rcases session with ⟨cursor, saved, status⟩
  cases saved with
  | nil => exact List.Subset.refl _
  | cons top rest => exact List.subset_cons_self cursor (top :: rest)

/-- Every cursor after a step is one from before it that passed over some unread octets. -/
theorem exists_pass_of_mem_after (valid : session.Valid) (step : Step)
    (member : cursor ∈ (session.after step).cursors) :
    ∃ earlier ∈ session.cursors, ∃ count ≤ earlier.available, cursor = earlier.pass count := by
  have unmoved (known : cursor ∈ session.cursors) :
      ∃ earlier ∈ session.cursors, ∃ count ≤ earlier.available, cursor = earlier.pass count :=
    ⟨cursor, known, 0, Nat.zero_le _, rfl⟩
  have moved (forward : step.IsForward) (sameSaved : (session.after step).saved = session.saved) :
      ∃ earlier ∈ session.cursors, ∃ count ≤ earlier.available, cursor = earlier.pass count := by
    rw [cursors, sameSaved, List.mem_cons] at member
    rcases member with rfl | isSaved
    · rcases exists_pass valid forward with ⟨count, fits, passed⟩
      exact ⟨session.cursor, List.mem_cons_self, count, fits, passed⟩
    · exact unmoved (List.mem_cons_of_mem _ isSaved)
  cases step with
  | call call => exact moved trivial rfl
  | raw request => exact moved trivial rfl
  | swap => exact unmoved (cursors_swap_subset member)
  | restore => exact unmoved (cursors_restore_subset member)
  | save =>
      rcases List.mem_cons.mp member with rfl | known
      · exact unmoved List.mem_cons_self
      · exact unmoved known
  | query | resetStatus => exact unmoved member

/-- Every step leads from valid cursors to valid cursors. -/
theorem Valid.after (valid : session.Valid) (step : Step) : (session.after step).Valid := by
  rw [valid_iff]
  intro cursor member
  rcases exists_pass_of_mem_after valid step member with ⟨earlier, known, count, fits, rfl⟩
  exact (valid_iff.mp valid earlier known).pass fits

/-- A run leads from valid cursors to valid cursors. -/
theorem Valid.run (valid : session.Valid) (steps : List Step) :
    (session.run steps).2.Valid := by
  induction steps generalizing session with
  | nil => exact valid
  | cons step rest ih => exact ih (valid.after step)

/-- Every cursor after a run is one from before it that passed over some unread octets. -/
theorem exists_pass_of_mem_run (valid : session.Valid) (steps : List Step)
    (member : cursor ∈ (session.run steps).2.cursors) :
    ∃ earlier ∈ session.cursors, ∃ count ≤ earlier.available, cursor = earlier.pass count := by
  induction steps generalizing session with
  | nil => exact ⟨cursor, member, 0, Nat.zero_le _, rfl⟩
  | cons step rest ih =>
      rcases ih (valid.after step) member with ⟨middle, middleKnown, second, secondFits, rfl⟩
      rcases exists_pass_of_mem_after valid step middleKnown with
        ⟨earlier, known, first, firstFits, rfl⟩
      rw [Cursor.available_pass] at secondFits
      exact ⟨earlier, known, first + second, by omega, Cursor.pass_pass first second⟩

theorem exists_pass_run (valid : session.Valid) {steps : List Step}
    (forward : ∀ step ∈ steps, step.IsForward) :
    ∃ count ≤ session.cursor.available,
      (session.run steps).2.cursor = session.cursor.pass count := by
  induction steps generalizing session with
  | nil => exact ⟨0, Nat.zero_le _, rfl⟩
  | cons step rest ih =>
      rw [List.forall_mem_cons] at forward
      rcases exists_pass valid forward.1 with ⟨first, firstFits, firstMoved⟩
      rcases ih (valid.after step) forward.2 with ⟨second, secondFits, secondMoved⟩
      rw [firstMoved, Cursor.available_pass] at secondFits
      refine ⟨first + second, by omega, ?_⟩
      rw [run_cons, secondMoved, firstMoved, Cursor.pass_pass]

/-- The session is one that steps lead to from an opened buffer. -/
inductive Reachable : Session → Prop where
  | opened {buffer : Bytes} {length : Nat} {options : Options} {cursor : Cursor}
      (isWord : buffer.length < sizeLimit)
      (opens : Cursor.ofBuffer buffer length options = .ok cursor) :
      Reachable { cursor := cursor }
  | after {session : Session} (reachable : Reachable session) (step : Step) :
      Reachable (session.after step)

theorem Reachable.run (reachable : session.Reachable) (steps : List Step) :
    (session.run steps).2.Reachable := by
  induction steps generalizing session with
  | nil => exact reachable
  | cons step rest ih => exact ih (reachable.after step)

end Session

namespace Cursor

/-- An opened cursor stands at the start of the octets before a zero octet. -/
theorem eq_of_ofBuffer {buffer : Bytes} {length : Nat} {options : Options}
    (opens : ofBuffer buffer length options = .ok cursor) :
    cursor = { bytes := buffer.take length, position := 0, options := options } ∧
      buffer[length]? = some 0 := by
  rw [ofBuffer] at opens
  split at opens
  next => cases opens
  next =>
      split at opens
      next => cases opens
      next =>
          split at opens
          next terminated =>
              cases opens
              exact ⟨rfl, terminated⟩
          next => cases opens

/-- Every nonempty text is opened before a zero octet, whatever follows that. -/
theorem ofBuffer_append_zero {text : Bytes} (rest : Bytes) (options : Options)
    (nonempty : text ≠ []) :
    ofBuffer (text ++ 0 :: rest) text.length options =
      .ok { bytes := text, position := 0, options := options } := by
  have notEmpty : (text ++ 0 :: rest).isEmpty = false :=
    List.isEmpty_eq_false_iff.mpr (List.append_ne_nil_of_left_ne_nil nonempty _)
  have notZero : text.length ≠ 0 := fun zero => nonempty (List.length_eq_zero_iff.mp zero)
  have terminated : (text ++ 0 :: rest)[text.length]? = some 0 := by
    rw [List.getElem?_append_right (Nat.le_refl _), Nat.sub_self, List.getElem?_cons_zero]
  rw [ofBuffer, notEmpty, if_neg Bool.false_ne_true, if_neg notZero, if_pos terminated,
    List.take_left]

theorem valid_of_ofBuffer {buffer : Bytes} {length : Nat} {options : Options}
    (isWord : buffer.length < sizeLimit)
    (opens : ofBuffer buffer length options = .ok cursor) : cursor.Valid := by
  rcases eq_of_ofBuffer opens with ⟨rfl, -⟩
  refine ⟨Nat.zero_le _, Nat.lt_of_le_of_lt ?_ isWord⟩
  exact List.length_take_le' _ _

/-- A session meets the cursor. -/
def Reachable (cursor : Cursor) : Prop :=
  ∃ session : Session, session.Reachable ∧ session.cursor = cursor

end Cursor

/-- A session can start at every nonempty text whose length is a machine word. -/
theorem Session.Reachable.ofText {text : Bytes} (nonempty : text ≠ [])
    (isWord : text.length + 1 < sizeLimit) (options : Options) :
    Reachable { cursor := { bytes := text, position := 0, options := options } } := by
  have opens := Cursor.ofBuffer_append_zero [] options nonempty
  refine .opened ?_ opens
  rw [List.length_append, List.length_singleton]
  exact isWord

theorem Cursor.Reachable.ofText {text : Bytes} (nonempty : text ≠ [])
    (isWord : text.length + 1 < sizeLimit) (options : Options) :
    Reachable { bytes := text, position := 0, options := options } :=
  ⟨_, Session.Reachable.ofText nonempty isWord options, rfl⟩

theorem Session.Reachable.valid {session : Session} (reachable : session.Reachable) :
    session.Valid := by
  induction reachable with
  | opened isWord opens => exact ⟨Cursor.valid_of_ofBuffer isWord opens, by simp⟩
  | after _ step ih => exact ih.after step

theorem Cursor.Reachable.valid (reachable : cursor.Reachable) : cursor.Valid := by
  rcases reachable with ⟨session, sessionReachable, rfl⟩
  exact sessionReachable.valid.cursor

end ByteCursor
