import ByteCursor.Proofs.Session.Script

/-!
# Fields behind each other

The four calls up to an octet agree on where they stop and on what stands before that.  So fields
without some octet can be written with that octet behind each of them: slices up to it give back
exactly the fields, empty ones included, and leave nothing unread.
-/

namespace ByteCursor

/-- The calls up to an octet give these octets, where they are content with them. -/
structure Cursor.YieldsUntil (cursor : Cursor) (stop : UInt8) (before : Bytes) : Prop where
  skip : (Call.skipPastByte stop).Passes cursor .nothing (before.length + 1)
  slice : (Call.readSliceUntil stop).Passes cursor (.slice before) (before.length + 1)
  text_succeeds_iff : (∃ reply count, (Call.readTextUntil stop).Passes cursor reply count) ↔
    Utf8.WellFormed before
  text_iff : ∀ reply count, (Call.readTextUntil stop).Passes cursor reply count ↔
    ∃ text, Bytes.ofString text = before ∧ reply = .text text ∧ count = before.length + 1
  copy_iff : ∀ output ≠ [], ∀ reply count,
    (Call.copyUntil output stop).Passes cursor reply count ↔
      before.length < output.length ∧ reply = .count before.length ∧ count = before.length + 1
  copied : ∀ output, before.length < output.length →
    ((Call.copyUntil output stop).run cursor).state.output =
      before ++ 0 :: output.drop (before.length + 1)

/-- The calls up to an octet stop behind its first occurrence, or they miss. -/
structure Cursor.AgreesUntil (cursor : Cursor) (stop : UInt8) : Prop where
  absent : stop ∉ cursor.remaining → ∀ call : Call, call.IsUntil stop → call.Misses cursor
  present : ∀ before rest, cursor.remaining = before ++ stop :: rest → stop ∉ before →
    cursor.YieldsUntil stop before
  passes_or_misses : ∀ call : Call, call.IsUntil stop →
    (∃ reply count, call.Passes cursor reply count) ∨ call.Misses cursor

theorem Cursor.yieldsUntil {cursor : Cursor} {stop : UInt8} {before rest : Bytes}
    (valid : cursor.Valid) (unread : cursor.remaining = before ++ stop :: rest)
    (absent : stop ∉ before) : cursor.YieldsUntil stop before where
  skip := Call.passes_skipPastByte valid unread absent
  slice := Call.passes_readSliceUntil valid unread absent
  text_succeeds_iff := Call.passes_readTextUntil_some_iff valid unread absent
  text_iff := fun _ _ => Call.passes_readTextUntil_iff valid unread absent
  copy_iff := fun _ nonempty _ _ => Call.passes_copyUntil_iff valid unread absent nonempty
  copied := by
    intro output room
    rw [Call.run_copyUntil_of_room valid unread absent room]
    rfl

namespace Session

/-- The calls up to an octet agree with each other, and slices up to it give back the fields that
were written before it. -/
theorem calls_until_agree {session : Session} (reachable : session.Reachable) (stop : UInt8) :
    session.cursor.AgreesUntil stop ∧
      ∀ fields : List Bytes, (∀ field ∈ fields, stop ∉ field) →
        session.cursor.remaining = fields.flatMap (fun field => field ++ [stop]) →
        let outcome := session.run (List.replicate fields.length (.call (.readSliceUntil stop)))
        outcome.1.map Answer.result = fields.map (fun field => .ok (.slice field)) ∧
          outcome.2.cursor.isEmpty = true := by
  have valid := reachable.valid.cursor
  refine ⟨⟨?absent, ?present, ?either⟩, ?fields⟩
  case absent =>
    intro absent call isUntil
    exact isUntil.misses valid absent
  case present =>
    intro before rest unread absent
    exact Cursor.yieldsUntil valid unread absent
  case either =>
    intro call isUntil
    exact Call.passes_or_misses valid isUntil.accepted
  case fields =>
    intro fields absent unread outcome
    rw [← List.append_nil (fields.flatMap _)] at unread
    obtain ⟨results, left⟩ := run_replicate reachable.valid
      (fun field member _ => Step.reads_readSliceUntil (absent field member)) unread
    refine ⟨results, ?_⟩
    rw [Cursor.isEmpty_iff, ← Cursor.remaining_eq_nil_iff, left]

/-- The fields of `a,,b,` are read back, a copy of the first one needs two octets, and there is no
semicolon to stop at. -/
theorem calls_until_agree_empty_field :
    let session : Session :=
      { cursor := { bytes := [0x61, 0x2c, 0x2c, 0x62, 0x2c], position := 0, options := {} } }
    let fields : List Bytes := [[0x61], [], [0x62]]
    let outcome := session.run (List.replicate fields.length (.call (.readSliceUntil 0x2c)))
    session.Reachable ∧ (∀ field ∈ fields, 0x2c ∉ field) ∧
      outcome.1.map Answer.result = fields.map (fun field => .ok (.slice field)) ∧
      outcome.2.cursor.isEmpty = true ∧
      (Call.copyUntil [7, 7] 0x2c).Passes session.cursor (.count 1) 2 ∧
      (Call.copyUntil [7] 0x2c).Misses session.cursor ∧
      (Call.readTextUntil 0x3b).Misses session.cursor := by
  intro session fields outcome
  have reachable : session.Reachable := .ofText (by decide) (by decide) {}
  have absent : ∀ field ∈ fields, 0x2c ∉ field := by decide
  have unread : session.cursor.remaining = [0x61] ++ 0x2c :: [0x2c, 0x62, 0x2c] := rfl
  obtain ⟨agrees, reads⟩ := calls_until_agree reachable 0x2c
  obtain ⟨results, exhausted⟩ := reads fields absent rfl
  have yields := agrees.present _ _ unread (by decide)
  have copies := (yields.copy_iff [7, 7] (by decide) (.count 1) 2).mpr ⟨by decide, rfl, rfl⟩
  have full : (Call.copyUntil [7] 0x2c).Misses session.cursor := by
    refine (agrees.passes_or_misses _ (.copy (by decide))).resolve_left ?_
    rintro ⟨reply, count, passes⟩
    exact absurd ((yields.copy_iff [7] (by decide) reply count).mp passes).1 (by decide)
  have noSemicolon := (calls_until_agree reachable 0x3b).1.absent (by decide) _ .text
  exact ⟨reachable, absent, results, exhausted, copies, full, noSemicolon⟩

end Session

end ByteCursor
