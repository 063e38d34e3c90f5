import ByteCursor.Proofs.Session.Reachable
import ByteCursor.Proofs.Status

/-!
# What the status of a session knows

The status holds the kinds of the errors that the calls of a run ended with, as far as no later
step forgot them.  What else a run does, be it on the cursor or on the saved copies, leaves the
status as it is.
-/

namespace ByteCursor

namespace Session

/-- The run makes the call on the session that it has met, and no later step forgets it. -/
def Remembers (session : Session) (steps : List Step) (call : Call) (met : Session) : Prop :=
  ∃ before after, steps = before ++ .call call :: after ∧ .resetStatus ∉ after ∧
    met = (session.run before).2

variable {session met : Session} {steps rest : List Step} {step : Step} {call : Call}

theorem not_remembers_nil : ¬ session.Remembers [] call met := by
  rintro ⟨before, after, split, -, -⟩
  cases before <;> cases split

/-- A run remembers its first call, if nothing resets the status, and what its rest remembers. -/
theorem remembers_cons :
    session.Remembers (step :: rest) call met ↔
      (step = .call call ∧ .resetStatus ∉ rest ∧ met = session) ∨
        (session.after step).Remembers rest call met := by
  constructor
  · rintro ⟨before, after, split, kept, rfl⟩
    cases before with
    | nil =>
        cases split
        exact .inl ⟨rfl, kept, rfl⟩
    | cons first before =>
        cases split
        exact .inr ⟨before, after, rfl, kept, rfl⟩
  · rintro (⟨rfl, kept, rfl⟩ | ⟨before, after, rfl, kept, rfl⟩)
    · exact ⟨[], rest, rfl, kept, rfl⟩
    · exact ⟨step :: before, after, rfl, kept, rfl⟩

theorem Remembers.valid (remembers : session.Remembers steps call met) (valid : session.Valid) :
    met.Valid := by
  obtain ⟨before, after, -, -, rfl⟩ := remembers
  exact valid.run before

/-- What a step adds to the status. -/
def recorded (session : Session) : Step → List (Except ReadError Unit)
  | .call call => [(call.run session.cursor).verdict]
  | _ => []

/-- What a run adds to the status, as far as the run remembers it. -/
def verdicts (session : Session) : List Step → List (Except ReadError Unit)
  | [] => []
  | step :: rest =>
      (if .resetStatus ∈ rest then [] else session.recorded step) ++
        (session.after step).verdicts rest

theorem status_after (session : Session) (step : Step) :
    (session.after step).status =
      (if step = .resetStatus then {} else session.status).recordAll (session.recorded step) := by
  cases step with
  | call | raw | query | save | resetStatus => rfl
  | swap =>
      rcases session with ⟨cursor, saved, status⟩
      cases saved <;> rfl
  | restore =>
      rcases session with ⟨cursor, saved, status⟩
      cases saved <;> rfl

/-- The status of a run is made of the verdicts that it remembers. -/
theorem status_run (session : Session) (steps : List Step) :
    (session.run steps).2.status =
      (if .resetStatus ∈ steps then {} else session.status).recordAll
        (session.verdicts steps) := by
  induction steps generalizing session with
  | nil => rfl
  | cons step rest ih =>
      rw [run_cons, ih, verdicts]
      -- A reset in the rest hides both the status before the step and what the step records.
      by_cases forgets : .resetStatus ∈ rest
      · rw [if_pos forgets, if_pos forgets, if_pos (List.mem_cons_of_mem step forgets),
          List.nil_append]
      · rw [if_neg forgets, if_neg forgets, status_after, Status.recordAll_append]
        simp only [List.mem_cons, forgets, or_false, eq_comm]

theorem mem_recorded {verdict : Except ReadError Unit} :
    verdict ∈ session.recorded step ↔
      ∃ call, step = .call call ∧ (call.run session.cursor).verdict = verdict := by
  cases step with
  | call call => simp [recorded, eq_comm]
  | _ => simp [recorded]

/-- The verdicts are those of the calls that the run remembers. -/
theorem mem_verdicts {verdict : Except ReadError Unit} :
    verdict ∈ session.verdicts steps ↔
      ∃ call met, session.Remembers steps call met ∧ (call.run met.cursor).verdict = verdict := by
  induction steps generalizing session with
  | nil => simp [verdicts, not_remembers_nil]
  | cons step rest ih =>
      rw [verdicts, List.mem_append, ih]
      constructor
      · rintro (now | ⟨call, met, remembers, ended⟩)
        · split at now
          next => cases now
          next kept =>
              obtain ⟨call, rfl, ended⟩ := mem_recorded.mp now
              exact ⟨call, session, remembers_cons.mpr (.inl ⟨rfl, kept, rfl⟩), ended⟩
        · exact ⟨call, met, remembers_cons.mpr (.inr remembers), ended⟩
      · rintro ⟨call, met, remembers, ended⟩
        rcases remembers_cons.mp remembers with ⟨rfl, kept, rfl⟩ | later
        · left
          rw [if_neg kept]
          exact mem_recorded.mpr ⟨call, rfl, ended⟩
        · exact .inr ⟨call, met, later, ended⟩

end Session

theorem Scan.Outcome.verdict_eq_error_iff {α : Type} {outcome : Scan.Outcome α}
    {error : ReadError} :
    outcome.verdict = .error error ↔ outcome.result = .error (.error error) := by
  rcases outcome with ⟨result, state, events⟩
  cases result with
  | ok value => simp [verdict]
  | error failure => cases failure <;> simp [verdict]

namespace Call

variable {call : Call} {cursor : Cursor} {outcome : Scan.Outcome Reply}

/-- A call never tells of a missing zero octet. -/
theorem Ends.kind_ne (ends : call.Ends cursor outcome) {error : ReadError}
    (failed : outcome.result = .error (.error error)) : error.kind ≠ .notTerminated := by
  cases ends with
  | refused objection =>
      cases failed
      exact ErrorKind.noConfusion
  | missed accepted =>
      cases failed
      exact ErrorKind.noConfusion
  | took accepted unread takes => cases failed

/-- A call that does not succeed ends with an error. -/
theorem Ends.ok_or_error (ends : call.Ends cursor outcome) :
    (∃ reply, outcome.result = .ok reply) ∨ ∃ error, outcome.result = .error (.error error) := by
  cases ends with
  | refused objection => exact .inr ⟨_, rfl⟩
  | missed accepted => exact .inr ⟨_, rfl⟩
  | took accepted unread takes => exact .inl ⟨_, rfl⟩

end Call

open Scan.Outcome

namespace Session

variable {cursor : Cursor} {steps : List Step}

/-- A session starts with no kinds, so its status only has those of the verdicts. -/
theorem status_run_start (cursor : Cursor) (steps : List Step) :
    (run { cursor := cursor } steps).2.status =
      ({} : Status).recordAll (verdicts { cursor := cursor } steps) := by
  rw [status_run, ite_self]

theorem contains_run_iff {kind : ErrorKind} :
    (run { cursor := cursor } steps).2.status.contains kind = true ↔
      ∃ call met error, Remembers { cursor := cursor } steps call met ∧
        (call.run met.cursor).result = .error (.error error) ∧ error.kind = kind := by
  rw [status_run_start, Status.contains_recordAll, Status.not_contains_empty]
  constructor
  · rintro (absurd | ⟨error, member, kindEq⟩)
    · cases absurd
    · obtain ⟨call, met, remembers, ended⟩ := mem_verdicts.mp member
      exact ⟨call, met, error, remembers, verdict_eq_error_iff.mp ended, kindEq⟩
  · rintro ⟨call, met, error, remembers, failed, kindEq⟩
    right
    exact ⟨error, mem_verdicts.mpr ⟨call, met, remembers, verdict_eq_error_iff.mpr failed⟩, kindEq⟩

theorem isOk_run_iff (valid : cursor.Valid) :
    (run { cursor := cursor } steps).2.status.isOk = true ↔
      ∀ call met, Remembers { cursor := cursor } steps call met →
        ∃ reply, (call.run met.cursor).result = .ok reply := by
  rw [status_run_start, Status.isOk_recordAll]
  constructor
  · rintro ⟨-, clear⟩ call met remembers
    have metValid := remembers.valid (valid_start valid)
    rcases (call.ends metValid.cursor).ok_or_error with succeeds | ⟨error, failed⟩
    · exact succeeds
    · have member := mem_verdicts.mpr ⟨call, met, remembers, verdict_eq_error_iff.mpr failed⟩
      exact absurd member (clear error)
  · intro succeed
    refine ⟨rfl, fun error member => ?_⟩
    obtain ⟨call, met, remembers, ended⟩ := mem_verdicts.mp member
    obtain ⟨reply, succeeds⟩ := succeed call met remembers
    rw [verdict_eq_error_iff, succeeds] at ended
    cases ended

theorem not_contains_notTerminated (valid : cursor.Valid) (steps : List Step) :
    (run { cursor := cursor } steps).2.status.contains .notTerminated = false := by
  rw [← Bool.not_eq_true, contains_run_iff]
  rintro ⟨call, met, error, remembers, failed, kindEq⟩
  have metValid := remembers.valid (valid_start valid)
  exact (call.ends metValid.cursor).kind_ne failed kindEq

/-- Only a reset forgets a kind. -/
theorem contains_after {session : Session} {step : Step} (kept : step ≠ .resetStatus)
    {kind : ErrorKind} (known : session.status.contains kind = true) :
    (session.after step).status.contains kind = true := by
  rw [status_after, if_neg kept, Status.contains_recordAll]
  exact .inl known

/-- The status of a run tells the kinds of the errors that its calls ended with since the last
reset, and no other.  Of recorded results only the kinds matter, not their order, how often they
occur or what succeeded in between. -/
theorem status_tells_kinds (reachable : cursor.Reachable) :
    (∀ steps : List Step,
      let last := (run { cursor := cursor } steps).2
      (∀ kind, last.status.contains kind = true ↔
        ∃ call met error, Remembers { cursor := cursor } steps call met ∧
          (call.run met.cursor).result = .error (.error error) ∧ error.kind = kind) ∧
      (last.status.isOk = true ↔
        ∀ call met, Remembers { cursor := cursor } steps call met →
          ∃ reply, (call.run met.cursor).result = .ok reply) ∧
      last.status.isError = !last.status.isOk ∧
      last.status.contains .notTerminated = false ∧
      ∀ step, step ≠ .resetStatus → ∀ kind, last.status.contains kind = true →
        (last.after step).status.contains kind = true) ∧
    ∀ (α : Type) (status : Status) (first second : List (Except ReadError α)),
      ((∀ kind, kind ∈ Status.kinds first ↔ kind ∈ Status.kinds second) →
        status.recordAll first = status.recordAll second) ∧
      (first.Perm second → status.recordAll first = status.recordAll second) ∧
      ((∀ result ∈ second, result ∈ first) →
        status.recordAll (first ++ second) = status.recordAll first) ∧
      status.recordAll (first.filter fun result => !result.isOk) = status.recordAll first ∧
      ∀ kind, (status.recordAll first).contains kind = true →
        (status.recordAll (first ++ second)).contains kind = true := by
  have valid := reachable.valid
  constructor
  · intro steps
    exact ⟨fun kind => contains_run_iff, isOk_run_iff valid, rfl,
      not_contains_notTerminated valid steps, fun step kept kind => contains_after kept⟩
  · intro α status first second
    refine ⟨Status.recordAll_congr, Status.recordAll_perm, Status.recordAll_append_of_subset,
      Status.recordAll_filter first, ?_⟩
    intro kind known
    rw [Status.recordAll_append, Status.contains_recordAll]
    exact .inl known

/-- A miss behind a reset is known and a refusal before it is not.  Exchanging the cursors leaves
both as they are. -/
theorem status_tells_kinds_reset :
    let cursor : Cursor := { bytes := [0x78], position := 0, options := {} }
    let steps : List Step :=
      [.call (.skipPattern []), .resetStatus, .save, .call .readBool, .swap]
    let last := (run { cursor := cursor } steps).2
    cursor.Reachable ∧ last.status.contains .parse = true ∧
      last.status.contains .invalidArgument = false ∧
      (last.after .restore).status.contains .parse = true := by
  intro cursor steps last
  have reachable : cursor.Reachable := .ofText (by decide) (by decide) {}
  obtain ⟨contains, -, -, -, keeps⟩ := (status_tells_kinds reachable).1 steps
  have remembers : Remembers { cursor := cursor } steps .readBool
      { cursor := cursor, saved := [cursor] } :=
    ⟨[.call (.skipPattern []), .resetStatus, .save], [.swap], rfl, by decide, by decide⟩
  have failed : (Call.readBool.run cursor).result = .error (.error (.parse "bool" 0)) := by
    decide
  have known := (contains .parse).mpr ⟨_, _, _, remembers, failed, rfl⟩
  exact ⟨reachable, known, by decide, keeps .restore (by decide) _ known⟩

end Session

end ByteCursor
