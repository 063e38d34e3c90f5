import ByteCursor.Proofs.Call.Result
import ByteCursor.Proofs.Session.Reachable
import Mathlib.Order.Bounds.Basic

/-!
# First occurrences

Skipping past a pattern compares windows of the unread octets and moves once.  The plain way to
look for a pattern is to try it where the cursor stands and, as long as it does not stand there, to
read an octet and to try again.  Both stop behind the first occurrence, also where occurrences
overlap each other.
-/

namespace ByteCursor

/-- Try to skip the pattern and, where it does not stand, read an octet and try again, so many
times at most.  The result is the cursor behind the pattern, if the octets do not run out. -/
def Cursor.trySkips (pattern : Bytes) : (trials : Nat) → Cursor → Option Cursor
  | 0, _ => none
  | trials + 1, cursor =>
      let trial := (Call.skipPattern pattern).run cursor
      match trial.result with
      | .ok _ => some trial.state.cursor
      | .error _ =>
          let read := Call.readByte.run trial.state.cursor
          match read.result with
          | .ok _ => trySkips pattern trials read.state.cursor
          | .error _ => none

/-- Skipping past the pattern goes behind its first occurrence, as trying at every octet does, and
misses where there is none. -/
structure Cursor.FindsFirst (cursor : Cursor) (pattern : Bytes) : Prop where
  succeeds_iff : (∃ reply count, (Call.skipPastPattern pattern).Passes cursor reply count) ↔
    pattern <:+: cursor.remaining
  passes_iff : ∀ reply count, (Call.skipPastPattern pattern).Passes cursor reply count ↔
    reply = .nothing ∧ ∃ offset,
      IsLeast {offset | (cursor.remaining.drop offset).take pattern.length = pattern} offset ∧
        count = offset + pattern.length
  misses : ¬ pattern <:+: cursor.remaining → (Call.skipPastPattern pattern).Misses cursor
  /-- More trials than unread octets are never used up. -/
  agrees : ∀ trials, cursor.available < trials →
    ((cursor.trySkips pattern trials).isSome = true ↔
        ∃ reply count, (Call.skipPastPattern pattern).Passes cursor reply count) ∧
      ((Call.skipPastPattern pattern).run cursor).state.cursor =
        (cursor.trySkips pattern trials).getD cursor

namespace Bytes

variable {pattern text : Bytes} {offset : Nat}

theorem occursAt_iff_take : OccursAt pattern text offset ↔
    (text.drop offset).take pattern.length = pattern := by
  rw [OccursAt, List.prefix_iff_eq_take, eq_comm]

/-- The search finds the least offset at which the pattern can be cut out of the text. -/
theorem offsetOfPattern?_eq_some_iff_isLeast (nonempty : pattern ≠ []) :
    offsetOfPattern? pattern text = some offset ↔
      IsLeast {offset | (text.drop offset).take pattern.length = pattern} offset := by
  rw [offsetOfPattern?_eq_some_iff nonempty, IsLeast, mem_lowerBounds]
  simp only [Set.mem_ofPred_eq, occursAt_iff_take]
  refine and_congr_right fun _ => ?_
  constructor
  · intro first other occurs
    exact Nat.le_of_not_lt fun earlier => first other earlier occurs
  · intro least earlier before occurs
    exact absurd (least earlier occurs) (Nat.not_le.mpr before)

end Bytes

namespace Call

variable {cursor : Cursor} {pattern rest : Bytes} {byte : UInt8} {reply : Reply} {count : Nat}

/-! ## The calls of a trial -/

theorem passes_skipPattern (nonempty : pattern ≠ []) (valid : cursor.Valid)
    (starts : pattern <+: cursor.remaining) :
    (skipPattern pattern).Passes cursor .nothing pattern.length := by
  have validStart : ((skipPattern pattern).start cursor).cursor.Valid := valid
  have scanned := Scan.run_skipPattern nonempty validStart
  rw [cursor_start, if_pos starts] at scanned
  exact passes_of_took (Scan.run_map_of_took scanned)

theorem misses_skipPattern (nonempty : pattern ≠ []) (valid : cursor.Valid)
    (other : ¬ pattern <+: cursor.remaining) : (skipPattern pattern).Misses cursor := by
  have validStart : ((skipPattern pattern).start cursor).cursor.Valid := valid
  have scanned := Scan.run_skipPattern nonempty validStart
  rw [cursor_start, if_neg other] at scanned
  exact misses_of_missed (Scan.run_map_of_missed scanned)

theorem passes_readByte (valid : cursor.Valid) (unread : cursor.remaining = byte :: rest) :
    readByte.Passes cursor (.byte byte) 1 := by
  have validStart : (readByte.start cursor).cursor.Valid := valid
  exact passes_of_took (Scan.run_map_of_took (Scan.run_readByte_cons validStart unread))

theorem misses_readByte (unread : cursor.remaining = []) : readByte.Misses cursor := by
  have unreadStart : (readByte.start cursor).cursor.remaining = [] := unread
  exact misses_of_missed (Scan.run_map_of_missed (Scan.run_readByte_nil unreadStart))

/-! ## The search -/

theorem passes_skipPastPattern_iff (nonempty : pattern ≠ []) (valid : cursor.Valid) :
    (skipPastPattern pattern).Passes cursor reply count ↔
      reply = .nothing ∧ ∃ offset,
        Bytes.offsetOfPattern? pattern cursor.remaining = some offset ∧
          count = offset + pattern.length := by
  have validStart : ((skipPastPattern pattern).start cursor).cursor.Valid := valid
  have scanned := Scan.run_skipPastPattern nonempty validStart
  rw [cursor_start] at scanned
  cases found : Bytes.offsetOfPattern? pattern cursor.remaining with
  | none =>
      rw [found] at scanned
      have misses : (skipPastPattern pattern).Misses cursor :=
        misses_of_missed (Scan.run_map_of_missed scanned)
      simp [misses.not_passes]
  | some offset =>
      rw [found] at scanned
      have ran : (skipPastPattern pattern).run cursor =
          .took .nothing (offset + pattern.length) ((skipPastPattern pattern).start cursor) [] :=
        Scan.run_map_of_took scanned
      rw [passes_iff_of_took ran]
      simp

/-- The search succeeds where the pattern occurs. -/
theorem passes_skipPastPattern_some_iff (nonempty : pattern ≠ []) (valid : cursor.Valid) :
    (∃ reply count, (skipPastPattern pattern).Passes cursor reply count) ↔
      pattern <:+: cursor.remaining := by
  simp only [passes_skipPastPattern_iff nonempty valid]
  rw [Bytes.isInfix_iff_occursAt]
  constructor
  · rintro ⟨reply, count, -, offset, found, -⟩
    exact ⟨offset, ((Bytes.offsetOfPattern?_eq_some_iff nonempty).mp found).1⟩
  · intro occurs
    have found : Bytes.offsetOfPattern? pattern cursor.remaining ≠ none := by
      intro notFound
      obtain ⟨offset, there⟩ := occurs
      exact (Bytes.offsetOfPattern?_eq_none_iff nonempty).mp notFound offset there
    obtain ⟨offset, found⟩ := Option.ne_none_iff_exists'.mp found
    exact ⟨_, _, rfl, offset, found, rfl⟩

end Call

namespace Cursor

variable {cursor : Cursor} {pattern : Bytes} {trials : Nat} {reply : Reply} {count : Nat}

/-! ## The trials -/

theorem trySkips_of_passes (passes : (Call.skipPattern pattern).Passes cursor reply count) :
    cursor.trySkips pattern (trials + 1) = some (cursor.pass count) := by
  rw [trySkips, passes.result, passes.cursor]

theorem trySkips_of_misses (misses : (Call.skipPattern pattern).Misses cursor)
    (reads : Call.readByte.Passes cursor reply count) :
    cursor.trySkips pattern (trials + 1) = (cursor.pass count).trySkips pattern trials := by
  rw [trySkips, misses.result, misses.unmoved]
  simp only [reads.result, reads.cursor]

theorem trySkips_of_exhausted (misses : (Call.skipPattern pattern).Misses cursor)
    (exhausted : Call.readByte.Misses cursor) :
    cursor.trySkips pattern (trials + 1) = none := by
  rw [trySkips, misses.result, misses.unmoved]
  simp only [exhausted.result]

/-- Trying at every octet stops where the search for the first occurrence does. -/
theorem trySkips_eq (nonempty : pattern ≠ []) (valid : cursor.Valid)
    (enough : cursor.available < trials) :
    cursor.trySkips pattern trials =
      (Bytes.offsetOfPattern? pattern cursor.remaining).map fun offset =>
        cursor.pass (offset + pattern.length) := by
  -- Each failed trial uses up one unread octet, so the trials outlast the octets.
  induction trials generalizing cursor with
  | zero => exact absurd enough (Nat.not_lt_zero _)
  | succ trials ih =>
      cases unread : cursor.remaining with
      | nil =>
          have other : ¬ pattern <+: cursor.remaining := by
            rw [unread, List.prefix_nil]
            exact nonempty
          rw [trySkips_of_exhausted (Call.misses_skipPattern nonempty valid other)
            (Call.misses_readByte unread)]
          rfl
      | cons byte rest =>
          rw [Bytes.offsetOfPattern?_cons, ← unread]
          by_cases starts : pattern <+: cursor.remaining
          · rw [trySkips_of_passes (Call.passes_skipPattern nonempty valid starts), if_pos starts,
              Option.map_some, Nat.zero_add]
          · have fits : 1 ≤ cursor.available := by
              rw [← length_remaining, unread, List.length_cons]
              omega
            have later : (cursor.pass 1).remaining = rest := by
              rw [remaining_pass, unread, List.drop_one, List.tail_cons]
            have fewer : (cursor.pass 1).available < trials := by
              rw [available_pass]
              omega
            rw [trySkips_of_misses (Call.misses_skipPattern nonempty valid starts)
              (Call.passes_readByte valid unread), ih (valid.pass fits) fewer, later,
              if_neg starts, Option.map_map]
            congr 1
            funext offset
            rw [Function.comp_apply, pass_pass]
            congr 1
            omega

/-- A search goes behind the first occurrence of the pattern or changes nothing, and trying the
pattern at every octet comes to the same. -/
theorem searches_find_first (reachable : cursor.Reachable) (nonempty : pattern ≠ []) :
    cursor.FindsFirst pattern := by
  have valid := reachable.valid
  have accepted : (Call.skipPastPattern pattern).objection? = none := if_neg nonempty
  have succeeds := Call.passes_skipPastPattern_some_iff nonempty valid
  refine ⟨succeeds, ?passes, ?misses, ?agrees⟩
  case passes =>
    intro reply count
    simp only [Call.passes_skipPastPattern_iff nonempty valid,
      Bytes.offsetOfPattern?_eq_some_iff_isLeast nonempty]
  case misses =>
    intro absent
    rw [Call.misses_iff valid accepted, succeeds]
    exact absent
  case agrees =>
    intro trials enough
    rw [trySkips_eq nonempty valid enough]
    cases found : Bytes.offsetOfPattern? pattern cursor.remaining with
    | none =>
        have never : ¬ ∃ reply count,
            (Call.skipPastPattern pattern).Passes cursor reply count := by
          simp [Call.passes_skipPastPattern_iff nonempty valid, found]
        have misses := (Call.misses_iff valid accepted).mpr never
        exact ⟨iff_of_false Bool.false_ne_true never, misses.unmoved⟩
    | some offset =>
        have passes : (Call.skipPastPattern pattern).Passes cursor .nothing
            (offset + pattern.length) :=
          (Call.passes_skipPastPattern_iff nonempty valid).mpr ⟨rfl, offset, found, rfl⟩
        exact ⟨iff_of_true rfl ⟨_, _, passes⟩, passes.cursor⟩

/-- The pattern `aab` is found in `aaab`, where it starts inside of a trial that fails. -/
theorem searches_find_first_overlapping :
    let cursor : Cursor := { bytes := [0x61, 0x61, 0x61, 0x62], position := 0, options := {} }
    let pattern : Bytes := [0x61, 0x61, 0x62]
    cursor.Reachable ∧ pattern ≠ [] ∧
      (Call.skipPastPattern pattern).Passes cursor .nothing 4 ∧
      (cursor.trySkips pattern 5).isSome = true := by
  intro cursor pattern
  have reachable : cursor.Reachable := .ofText (by decide) (by decide) {}
  have nonempty : pattern ≠ [] := List.cons_ne_nil _ _
  have finds := searches_find_first reachable nonempty
  have least :
      IsLeast {offset | (cursor.remaining.drop offset).take pattern.length = pattern} 1 := by
    refine ⟨by decide, ?_⟩
    intro other occurs
    cases other with
    | zero => exact absurd occurs (by decide)
    | succ other => exact Nat.succ_le_succ (Nat.zero_le other)
  have passes := (finds.passes_iff .nothing 4).mpr ⟨rfl, 1, least, rfl⟩
  exact ⟨reachable, nonempty, passes, (finds.agrees 5 (by decide)).1.mpr ⟨_, _, passes⟩⟩

end Cursor

end ByteCursor
