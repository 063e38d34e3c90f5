import ByteCursor.Proofs.Call.Word
import ByteCursor.Proofs.Session.Locality
import ByteCursor.Proofs.Session.Transaction

/-!
# Options change what they name

Two cursors that differ in their options answer a run alike as long as no call reads a switch in
which they differ.  The lead switches are read by the hexadecimal calls, and the narrowing by the
calls that read a narrow type with a sign.

Permissive narrowing only adds answers: a call that succeeds strictly succeeds permissively with
the same value.
-/

namespace ByteCursor

namespace Cursor

/-- The same cursor with other options. -/
def withOptions (cursor : Cursor) (options : Options) : Cursor :=
  { cursor with options := options }

/-- Exchanging the options of a cursor. -/
def Relocation.options (options : Options) : Relocation where
  move cursor := cursor.withOptions options
  distance := 0
  remaining_move _ := rfl
  length_move _ := (Nat.zero_add _).symm
  seek_move cursor position := congrArg (cursor.withOptions options).seek (Nat.zero_add position)

theorem Valid.withOptions {cursor : Cursor} (valid : cursor.Valid) (options : Options) :
    (cursor.withOptions options).Valid :=
  ⟨valid.inside, valid.isWord⟩

end Cursor

/-! ## No distance -/

theorem ReadError.shift_zero (error : ReadError) : error.shift 0 = error := by
  cases error <;> simp [shift]

theorem Failure.shift_zero (failure : Failure) : failure.shift 0 = failure := by
  cases failure with
  | error cause => rw [shift, ReadError.shift_zero]
  | breach cause => rfl

theorem Event.shift_zero (event : Event) : event.shift 0 = event := by
  cases event <;> simp [shift]

theorem Step.shiftReply_zero (step : Step) (reply : Reply) : step.shiftReply 0 reply = reply := by
  cases step with
  | query query => cases query <;> cases reply <;> simp [shiftReply]
  | call | raw | save | swap | restore | resetStatus => rfl

theorem Step.shift_zero (step : Step) (answer : Answer) : step.shift 0 answer = answer := by
  rcases answer with ⟨result, position, output, events⟩
  have sameEvents : events.map (Event.shift 0) = events :=
    List.map_id'' Event.shift_zero events
  cases result with
  | ok reply => simp [shift, Except.map, Except.mapError, shiftReply_zero, sameEvents]
  | error failure => simp [shift, Except.map, Except.mapError, Failure.shift_zero, sameEvents]

/-! ## Calls that read the switches -/

namespace Call

/-- The call reads a hexadecimal integer. -/
def ReadsHex : Call → Prop
  | readHex _ _ => True
  | _ => False

/-- The call reads an integer with a sign and fewer than 32 bits. -/
def NarrowsSigned : Call → Prop
  | readDecimal type | readHex type _ => type.IsNarrowSigned
  | _ => False

variable {call : Call} {cursor : Cursor} {first second : Options}

theorem agrees_of_narrowing (plain : ¬ call.ReadsHex)
    (same : first.narrowing = second.narrowing) : call.Agrees first second := by
  cases call with
  | readDecimal type => exact fun _ => same
  | readHex type order => exact absurd trivial plain
  | _ => trivial

theorem agrees_of_lead (wide : ¬ call.NarrowsSigned) (lead : first.SameLead second) :
    call.Agrees first second := by
  cases call with
  | readDecimal type => exact fun narrow => absurd narrow wide
  | readHex type order => exact ⟨lead, fun narrow => absurd narrow wide⟩
  | _ => trivial

/-- What succeeds is answered alike where narrowing is permissive. -/
theorem run_move_of_ok {relocation : Cursor.Relocation} {reply : Reply}
    (valid : (relocation.move cursor).Valid)
    (lead : (relocation.move cursor).options.SameLead cursor.options)
    (permissive : (relocation.move cursor).options.narrowing = .permissive)
    (succeeds : (call.run cursor).result = .ok reply) :
    call.run (relocation.move cursor) = (call.run cursor).move relocation := by
  have validHere := relocation.valid_of_move valid
  cases call with
  | readDecimal type =>
      -- What is accepted for its range stays accepted, and permissive narrowing accepts the rest.
      obtain ⟨-, accepted⟩ := accepts_of_readDecimal validHere rfl succeeds
      apply run_readDecimal_move valid rfl
      intro _
      apply iff_of_true _ accepted
      rcases accepted with holds | ⟨signed, -⟩
      · exact .inl holds
      · exact .inr ⟨signed, permissive⟩
  | readHex type order =>
      obtain ⟨-, accepted⟩ := accepts_of_readHex validHere rfl succeeds
      apply run_readHex_move order valid lead rfl
      intro _
      apply iff_of_true _ accepted
      rcases accepted with below | ⟨signed, -⟩
      · exact .inl below
      · exact .inr ⟨signed, permissive⟩
  | _ => exact run_move _ valid trivial

end Call

/-- The answer with the default options in place of those that it reports. -/
def Answer.withoutOptions (answer : Answer) : Answer :=
  match answer.result with
  | .ok (.options _) => { answer with result := .ok (.options {}) }
  | _ => answer

namespace Session

variable {session : Session} {options : Options}

/-- With other options a step is answered alike, but for the options themselves. -/
theorem answer_withOptions (valid : session.Valid) {step : Step}
    (follows : step.Follows (.options options) session.cursor) :
    ((session.move (.options options)).answer step).withoutOptions =
      (session.answer step).withoutOptions := by
  by_cases asks : step = .query .options
  · subst asks
    rfl
  · rw [answer_move (valid.cursor.withOptions options) follows fun same => absurd same asks]
    exact congrArg Answer.withoutOptions (Step.shift_zero _ _)

/-- With other options a run is answered alike, if its calls follow. -/
theorem run_withOptions (valid : session.Valid) {steps : List Step}
    (follows : ∀ before step after, steps = before ++ step :: after →
      step.Follows (.options options) (session.run before).2.cursor) :
    ((session.move (.options options)).run steps).1.map Answer.withoutOptions =
      (session.run steps).1.map Answer.withoutOptions := by
  induction steps generalizing session with
  | nil => rfl
  | cons step rest ih =>
      have first : step.Follows (.options options) session.cursor := follows [] step rest rfl
      have later : ∀ before next after, rest = before ++ next :: after →
          next.Follows (.options options) ((session.after step).run before).2.cursor := by
        rintro before next after rfl
        exact follows (step :: before) next after rfl
      rw [run_cons, run_cons, List.map_cons, List.map_cons, answer_withOptions valid first,
        after_move (valid.cursor.withOptions options) first, ih (valid.after step) later]

/-- A run does not change the options. -/
theorem options_run {cursor : Cursor} (valid : cursor.Valid) (steps : List Step) :
    (run { cursor := cursor } steps).2.cursor.options = cursor.options := by
  have start := valid_start valid
  obtain ⟨earlier, known, count, -, moved⟩ :=
    exists_pass_of_mem_run start steps (List.mem_cons_self)
  rw [moved, Cursor.options_pass, List.mem_singleton.mp known]

/-- The cursors answer the steps alike, but for the options themselves. -/
def Alike (first second : Cursor) (steps : List Step) : Prop :=
  (run { cursor := first } steps).1.map Answer.withoutOptions =
    (run { cursor := second } steps).1.map Answer.withoutOptions

variable {cursor : Cursor}

/-- The sessions that a run meets decide whether its calls follow. -/
theorem alike_withOptions (valid : cursor.Valid) {steps : List Step}
    (follows : ∀ before call after, steps = before ++ .call call :: after →
      ∀ met : Cursor, met = (run { cursor := cursor } before).2.cursor → met.Valid →
        met.options = cursor.options →
        call.run ((Cursor.Relocation.options options).move met) =
          (call.run met).move (.options options)) :
    Alike cursor (cursor.withOptions options) steps := by
  have start := valid_start valid
  apply Eq.symm
  apply run_withOptions start
  rintro before step after split call rfl
  exact follows before call after split _ rfl (start.run before).cursor (options_run valid before)

theorem alike_of_agrees (valid : cursor.Valid) {steps : List Step}
    (agrees : ∀ call, .call call ∈ steps → call.Agrees options cursor.options) :
    Alike cursor (cursor.withOptions options) steps := by
  apply alike_withOptions valid
  rintro before call after rfl met - metValid sameOptions
  apply call.run_move (metValid.withOptions options)
  rw [sameOptions]
  exact agrees call (List.mem_append_right before List.mem_cons_self)

/-- The lead switches only reach the hexadecimal calls and the narrowing only the calls that read
a narrow type with a sign.  Permissive narrowing keeps every answer of a run in which all of these
succeed strictly, and what it adds ends where the word ends. -/
theorem options_change_what_they_name (reachable : cursor.Reachable) (options : Options) :
    let other := cursor.withOptions options
    (options.narrowing = cursor.options.narrowing → ∀ steps : List Step,
      (∀ call : Call, .call call ∈ steps → ¬ call.ReadsHex) → Alike cursor other steps) ∧
    (options.SameLead cursor.options → ∀ steps : List Step,
      (∀ call : Call, .call call ∈ steps → ¬ call.NarrowsSigned) → Alike cursor other steps) ∧
    (options.SameLead cursor.options → cursor.options.narrowing = .strict →
      options.narrowing = .permissive →
      (∀ steps : List Step,
        (∀ before (call : Call) after, steps = before ++ .call call :: after →
          call.NarrowsSigned →
          ((run { cursor := cursor } before).2.answer (.call call)).succeeds) →
        Alike cursor other steps) ∧
      ∀ (call word : Call) (failure : Failure) (reply : Reply),
        call.NarrowsSigned → call.word? = some word →
        (call.run cursor).result = .error failure → (call.run other).result = .ok reply →
        ∃ value, (word.run other).result = .ok (.integer value) ∧
          (call.run other).state.cursor = (word.run other).state.cursor) := by
  intro other
  have valid := reachable.valid
  refine ⟨?_, ?_, ?_⟩
  · intro same steps plain
    apply alike_of_agrees valid
    intro call member
    exact Call.agrees_of_narrowing (plain call member) same
  · intro lead steps wide
    apply alike_of_agrees valid
    intro call member
    exact Call.agrees_of_lead (wide call member) lead
  · intro lead strict permissive
    constructor
    · intro steps succeed
      apply alike_withOptions valid
      rintro before call after rfl met metEq metValid sameOptions
      have otherValid := metValid.withOptions options
      by_cases narrow : call.NarrowsSigned
      · obtain ⟨reply, succeeds⟩ :=
          Answer.exists_reply (succeed before call after rfl narrow)
        subst metEq
        apply Call.run_move_of_ok otherValid _ permissive succeeds
        rw [sameOptions]
        exact lead
      · apply call.run_move otherValid
        apply Call.agrees_of_lead narrow
        rw [sameOptions]
        exact lead
    · intro call word failure reply _ wordEq _ succeeds
      obtain ⟨value, result, sameCursor⟩ :=
        Call.exists_word_of_ok (valid.withOptions options) wordEq succeeds
      exact ⟨value, result, sameCursor.symm⟩

/-- A number of 9 bits is no value of 8 bits, which permissive narrowing reads all the same and as
far as 32 bits reach. -/
theorem options_change_what_they_name_overflow :
    let cursor : Cursor :=
      { bytes := [0x20, 0x33, 0x30, 0x30, 0x2c], position := 0, options := {} }
    let options : Options := { narrowing := .permissive }
    cursor.Reachable ∧
      ((Call.readDecimal .i8).run cursor).result = .error (.error (.parse "i8" 0)) ∧
      ((Call.readDecimal .i8).run (cursor.withOptions options)).result = .ok (.integer 44) ∧
      (∃ value,
        ((Call.readDecimal .i32).run (cursor.withOptions options)).result =
            .ok (.integer value) ∧
        ((Call.readDecimal .i8).run (cursor.withOptions options)).state.cursor =
          ((Call.readDecimal .i32).run (cursor.withOptions options)).state.cursor) ∧
      Alike cursor (cursor.withOptions options) [.call (.readDecimal .i16)] ∧
      Alike cursor (cursor.withOptions options)
        [.call (.readHex .u8 .little), .query .options] := by
  intro cursor options
  have reachable : cursor.Reachable := .ofText (by decide) (by decide) {}
  obtain ⟨-, wide, narrow⟩ := options_change_what_they_name reachable options
  obtain ⟨keeps, adds⟩ := narrow ⟨rfl, rfl⟩ rfl rfl
  have failed : ((Call.readDecimal .i8).run cursor).result =
      .error (.error (.parse "i8" 0)) := by decide
  have added : ((Call.readDecimal .i8).run (cursor.withOptions options)).result =
      .ok (.integer 44) := by decide
  refine ⟨reachable, failed, added, adds _ _ _ _ (.inr rfl) rfl failed added, ?_, ?_⟩
  · apply keeps
    intro before call after split _
    cases before with
    | nil =>
        cases split
        decide
    | cons step rest => simp at split
  · apply wide ⟨rfl, rfl⟩
    intro call member
    simp only [List.mem_cons, List.not_mem_nil, Step.call.injEq, or_false, reduceCtorEq] at member
    subst member
    change ¬ IntType.u8.IsNarrowSigned
    decide

end Session

end ByteCursor
