import ByteCursor.Proofs.Call.Result
import ByteCursor.Proofs.Utf8

/-!
# Calls up to an octet

Four calls look for an octet: one skips past it, and the others return or copy what stands before
it.  All of them go behind its first occurrence, and all of them miss where it does not occur.  They
differ in what they ask of the octets before it: nothing, that these are the octets of a text, or
that the output buffer has room for one more octet than them.
-/

namespace ByteCursor.Call

/-- The call looks for the octet, and its arguments are not objected to. -/
inductive IsUntil (stop : UInt8) : Call → Prop where
  | skip : IsUntil stop (.skipPastByte stop)
  | slice : IsUntil stop (.readSliceUntil stop)
  | text : IsUntil stop (.readTextUntil stop)
  | copy {output : Bytes} (nonempty : output ≠ []) : IsUntil stop (.copyUntil output stop)

variable {call : Call} {cursor : Cursor} {stop : UInt8} {before rest output : Bytes}
  {reply : Reply} {count : Nat}

namespace IsUntil

theorem accepted (isUntil : call.IsUntil stop) : call.objection? = none := by
  cases isUntil with
  | skip | slice | text => rfl
  | copy nonempty => exact if_neg nonempty

/-- What such a call takes ends with the octet. -/
theorem mem_of_takes (isUntil : call.IsUntil stop) {token : Bytes}
    (takes : call.Takes token rest reply output) : stop ∈ token := by
  cases isUntil <;> cases takes <;> exact List.mem_append_right _ List.mem_cons_self

theorem misses (isUntil : call.IsUntil stop) (valid : cursor.Valid)
    (absent : stop ∉ cursor.remaining) : call.Misses cursor := by
  rw [misses_iff valid isUntil.accepted]
  rintro ⟨reply, count, passes⟩
  obtain ⟨token, rest, output, unread, -, takes⟩ := passes.exists_token valid
  rw [unread] at absent
  exact absent (List.mem_append_left _ (isUntil.mem_of_takes takes))

end IsUntil

section Present

variable (valid : cursor.Valid) (unread : cursor.remaining = before ++ stop :: rest)
  (absent : stop ∉ before)

include valid unread absent

theorem passes_skipPastByte :
    (skipPastByte stop).Passes cursor .nothing (before.length + 1) := by
  have validStart : ((skipPastByte stop).start cursor).cursor.Valid := valid
  have scanned := Scan.run_skipPastByte stop validStart
  rw [cursor_start, unread, Bytes.offsetOf?_append absent] at scanned
  exact passes_of_took (Scan.run_map_of_took scanned)

theorem passes_readSliceUntil :
    (readSliceUntil stop).Passes cursor (.slice before) (before.length + 1) := by
  have validStart : ((readSliceUntil stop).start cursor).cursor.Valid := valid
  have scanned := Scan.run_readSliceUntil stop validStart
  simp only [cursor_start, unread, Bytes.offsetOf?_append absent, List.take_left] at scanned
  exact passes_of_took (Scan.run_map_of_took scanned)

/-- A text is read where the octets before the stop octet are its octets. -/
theorem passes_readTextUntil_iff :
    (readTextUntil stop).Passes cursor reply count ↔
      ∃ text, Bytes.ofString text = before ∧ reply = .text text ∧ count = before.length + 1 := by
  have validStart : ((readTextUntil stop).start cursor).cursor.Valid := valid
  have scanned := Scan.run_readTextUntil stop validStart
  simp only [cursor_start, unread, Bytes.offsetOf?_append absent, List.take_left] at scanned
  cases read : Bytes.toString? before with
  | none =>
      rw [read] at scanned
      have misses : (readTextUntil stop).Misses cursor :=
        misses_of_missed (Scan.run_map_of_missed scanned)
      refine iff_of_false misses.not_passes ?_
      rintro ⟨text, rfl, -⟩
      rw [Bytes.toString?_ofString] at read
      cases read
  | some text =>
      rw [read] at scanned
      have octets := Bytes.ofString_of_toString? read
      have ran : (readTextUntil stop).run cursor =
          .took (.text text) (before.length + 1) ((readTextUntil stop).start cursor) [] :=
        Scan.run_map_of_took scanned
      rw [passes_iff_of_took ran]
      constructor
      · intro same
        exact ⟨text, octets, same⟩
      · rintro ⟨other, otherOctets, same⟩
        rw [Bytes.ofString_injective (otherOctets.trans octets.symm)] at same
        exact same

/-- Some text is read where the octets before the stop octet are well-formed. -/
theorem passes_readTextUntil_some_iff :
    (∃ reply count, (readTextUntil stop).Passes cursor reply count) ↔ Utf8.WellFormed before := by
  simp only [passes_readTextUntil_iff valid unread absent, Utf8.wellFormed_iff]
  constructor
  · rintro ⟨reply, count, text, octets, -⟩
    exact ⟨text, octets⟩
  · rintro ⟨text, octets⟩
    exact ⟨_, _, text, octets, rfl, rfl⟩

/-- A copy succeeds where the buffer has room for the zero octet behind it. -/
theorem run_copyUntil_of_room (room : before.length < output.length) :
    (copyUntil output stop).run cursor =
      .took (.count before.length) (before.length + 1)
        { cursor := cursor, output := Scan.overwrite output before } [] := by
  have validStart : ((copyUntil output stop).start cursor).cursor.Valid := valid
  have nonempty : output ≠ [] := List.ne_nil_of_length_pos (Nat.zero_lt_of_lt room)
  have scanned := Scan.run_copyUntil stop nonempty validStart
  have starts : before ++ [stop] <+: Scan.searched ((copyUntil output stop).start cursor) := by
    have split := unread.trans (List.append_cons before stop rest)
    have fits := Cursor.length_le_available split
    rw [List.length_append, List.length_singleton] at fits
    rw [Scan.searched, List.prefix_take_iff, cursor_start, split, List.length_append,
      List.length_singleton]
    exact ⟨List.prefix_append _ _, Nat.le_min.mpr ⟨room, fits⟩⟩
  obtain ⟨behind, searchedEq⟩ := starts
  rw [List.append_assoc, List.singleton_append] at searchedEq
  simp only [cursor_start, ← searchedEq, Bytes.offsetOf?_append absent, unread, List.take_left]
    at scanned
  exact Scan.run_map_of_took scanned

/-- Where the buffer has no room for the zero octet, the stop octet is not reached. -/
theorem misses_copyUntil_of_full (nonempty : output ≠ []) (full : output.length ≤ before.length) :
    (copyUntil output stop).Misses cursor := by
  have validStart : ((copyUntil output stop).start cursor).cursor.Valid := valid
  have scanned := Scan.run_copyUntil stop nonempty validStart
  let state := (copyUntil output stop).start cursor
  have short : (Scan.searched state).length ≤ before.length := by
    rw [Scan.length_searched]
    exact Nat.le_trans (Nat.min_le_left _ _) full
  have inside : Scan.searched state <+: before := by
    apply List.prefix_of_prefix_length_le (Scan.searched_isPrefix state) _ short
    rw [cursor_start, unread]
    exact List.prefix_append _ _
  have notSearched : stop ∉ Scan.searched state := fun member => absent (inside.subset member)
  rw [Bytes.offsetOf?_eq_none_iff.mpr notSearched] at scanned
  exact misses_of_missed (Scan.run_map_of_missed scanned)

theorem passes_copyUntil_iff (nonempty : output ≠ []) :
    (copyUntil output stop).Passes cursor reply count ↔
      before.length < output.length ∧ reply = .count before.length ∧
        count = before.length + 1 := by
  rcases Nat.lt_or_ge before.length output.length with room | full
  · rw [passes_iff_of_took (run_copyUntil_of_room valid unread absent room), and_iff_right room]
  · have misses := misses_copyUntil_of_full valid unread absent nonempty full
    exact iff_of_false misses.not_passes fun passes => absurd passes.1 (Nat.not_lt.mpr full)

end Present

end ByteCursor.Call
