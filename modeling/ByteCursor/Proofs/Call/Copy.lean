import ByteCursor.Proofs.Call.Result
import ByteCursor.Proofs.Session.Reachable
import Mathlib.Order.Bounds.Basic

/-!
# What copies write

Two calls copy unread octets into the output buffer of their caller.  A copy that succeeds leaves
the octets, a zero octet behind them and the old end of the buffer.  Everything that can fail is
looked at before the first octet is written, the arguments before the text, so a copy that fails
leaves the buffer as it was handed over.
-/

namespace ByteCursor

namespace Call

/-- The call left so many of the unread octets and a zero octet in the output buffer, whose length
and whose octets behind the zero octet are the old ones. -/
structure Copies (call : Call) (cursor : Cursor) (size : Nat) : Prop where
  fits : size ≤ cursor.available
  /-- The zero octet lies within the buffer. -/
  room : size < call.output.length
  output : (call.run cursor).state.output =
    cursor.remaining.take size ++ [0] ++ call.output.drop (size + 1)
  length : (call.run cursor).state.output.length = call.output.length
  kept : ∀ index, size < index → (call.run cursor).state.output[index]? = call.output[index]?

/-- The call failed with the error, and neither the cursor nor the output buffer has changed. -/
structure FailsWith (call : Call) (cursor : Cursor) (error : ReadError) : Prop where
  result : (call.run cursor).result = .error (.error error)
  state : (call.run cursor).state = { cursor := cursor, output := call.output }

end Call

/-- Copying a slice needs a size, a buffer that is longer than the slice and enough unread octets,
and what is missing first in this order is the error. -/
structure Cursor.CopiesSlice (cursor : Cursor) (output : Bytes) (size : Nat) : Prop where
  passes_iff : ∀ reply count, (Call.copySlice output size).Passes cursor reply count ↔
    (0 < size ∧ size < output.length ∧ size ≤ cursor.available) ∧ reply = .nothing ∧ count = size
  copies : 0 < size → size < output.length → size ≤ cursor.available →
    (Call.copySlice output size).Copies cursor size
  empty : size = 0 →
    (Call.copySlice output size).FailsWith cursor (.invalidArgument "zero size")
  small : 0 < size → output.length ≤ size →
    (Call.copySlice output size).FailsWith cursor (.invalidArgument "output buffer too small")
  short : 0 < size → size < output.length → cursor.available < size →
    (Call.copySlice output size).FailsWith cursor (.parse "read slice" cursor.position)

/-- Copying up to a stop octet needs a buffer, and the stop octet among as many unread octets as
the buffer has. -/
structure Cursor.CopiesUntil (cursor : Cursor) (output : Bytes) (stop : UInt8) : Prop where
  succeeds_iff : (∃ reply count, (Call.copyUntil output stop).Passes cursor reply count) ↔
    stop ∈ cursor.remaining.take (min output.length cursor.available)
  passes_iff : ∀ reply count, (Call.copyUntil output stop).Passes cursor reply count ↔
    ∃ index, IsLeast {index |
        (cursor.remaining.take (min output.length cursor.available))[index]? = some stop} index ∧
      reply = .count index ∧ count = index + 1
  copies : ∀ index count, (Call.copyUntil output stop).Passes cursor (.count index) count →
    (Call.copyUntil output stop).Copies cursor index
  empty : output = [] →
    (Call.copyUntil output stop).FailsWith cursor (.invalidArgument "empty output buffer")
  absent : output ≠ [] → stop ∉ cursor.remaining.take (min output.length cursor.available) →
    (Call.copyUntil output stop).FailsWith cursor
      (.parse "read substr until char" cursor.position)

/-- The search for an octet finds the least index at which it stands. -/
theorem Bytes.offsetOf?_eq_some_iff_isLeast {stop : UInt8} {text : Bytes} {offset : Nat} :
    offsetOf? stop text = some offset ↔ IsLeast {index | text[index]? = some stop} offset := by
  rw [offsetOf?, List.findIdx?_eq_some_iff_getElem, IsLeast, mem_lowerBounds]
  simp only [Set.mem_ofPred_eq, List.getElem?_eq_some_iff, beq_iff_eq]
  constructor
  · rintro ⟨inside, here, first⟩
    refine ⟨⟨inside, here⟩, ?_⟩
    rintro other ⟨otherInside, there⟩
    exact Nat.le_of_not_lt fun earlier => first other earlier there
  · rintro ⟨⟨inside, here⟩, least⟩
    refine ⟨inside, here, ?_⟩
    intro earlier before there
    exact absurd (least earlier ⟨Nat.lt_trans before inside, there⟩) (Nat.not_le.mpr before)

namespace Call

variable {call : Call} {cursor : Cursor} {output : Bytes} {size index count : Nat} {stop : UInt8}
  {reply : Reply} {what : String} {events : List Event}

/-! ## From outcomes -/

theorem copies_of_took (fits : size ≤ cursor.available) (room : size < call.output.length)
    (ran : call.run cursor = .took reply count
      { cursor := cursor,
        output := Scan.overwrite call.output (cursor.remaining.take size) } events) :
    call.Copies cursor size := by
  have length : (cursor.remaining.take size).length = size := by
    rw [List.length_take, Cursor.length_remaining]
    exact Nat.min_eq_left fits
  have output : (call.run cursor).state.output =
      Scan.overwrite call.output (cursor.remaining.take size) := by
    rw [ran]
    rfl
  refine ⟨fits, room, ?output, ?length, ?kept⟩
  case output =>
    rw [output, Scan.overwrite, length, List.append_assoc]
    rfl
  case length =>
    rw [output]
    exact Scan.length_overwrite (length.symm ▸ room)
  case kept =>
    intro index behind
    rw [output]
    exact Scan.getElem?_overwrite (length.symm ▸ behind)

theorem failsWith_of_refused (ran : call.run cursor = .refused what (call.start cursor)) :
    call.FailsWith cursor (.invalidArgument what) where
  result := congrArg Scan.Outcome.result ran
  state := congrArg Scan.Outcome.state ran

theorem failsWith_of_missed (ran : call.run cursor = .missed what (call.start cursor) events) :
    call.FailsWith cursor (.parse what cursor.position) where
  result := congrArg Scan.Outcome.result ran
  state := congrArg Scan.Outcome.state ran

theorem FailsWith.not_passes {error : ReadError} (fails : call.FailsWith cursor error) :
    ¬ call.Passes cursor reply count := by
  intro passes
  have result := fails.result
  rw [passes.result] at result
  cases result

/-! ## Slices -/

theorem failsWith_copySlice_zero (output : Bytes) :
    (copySlice output 0).FailsWith cursor (.invalidArgument "zero size") :=
  failsWith_of_refused (Scan.run_map_of_refused (Scan.run_copySlice_zero _))

theorem failsWith_copySlice_small (positive : 0 < size) (small : output.length ≤ size) :
    (copySlice output size).FailsWith cursor (.invalidArgument "output buffer too small") :=
  failsWith_of_refused
    (Scan.run_map_of_refused (Scan.run_copySlice_small (Nat.ne_of_gt positive) small))

theorem failsWith_copySlice_short (positive : 0 < size) (room : size < output.length)
    (valid : cursor.Valid) (short : cursor.available < size) :
    (copySlice output size).FailsWith cursor (.parse "read slice" cursor.position) := by
  have validStart : ((copySlice output size).start cursor).cursor.Valid := valid
  have scanned := Scan.run_copySlice (Nat.ne_of_gt positive) room validStart
  rw [cursor_start, if_neg (Nat.not_le.mpr short)] at scanned
  exact failsWith_of_missed (Scan.run_map_of_missed scanned)

/-- A slice that fits both the text and the buffer is copied. -/
theorem run_copySlice (positive : 0 < size) (room : size < output.length)
    (valid : cursor.Valid) (fits : size ≤ cursor.available) :
    (copySlice output size).run cursor =
      .took .nothing size
        { cursor := cursor, output := Scan.overwrite output (cursor.remaining.take size) } [] := by
  have validStart : ((copySlice output size).start cursor).cursor.Valid := valid
  have scanned := Scan.run_copySlice (Nat.ne_of_gt positive) room validStart
  rw [cursor_start, if_pos fits] at scanned
  exact Scan.run_map_of_took scanned

theorem passes_copySlice_iff (valid : cursor.Valid) :
    (copySlice output size).Passes cursor reply count ↔
      (0 < size ∧ size < output.length ∧ size ≤ cursor.available) ∧
        reply = .nothing ∧ count = size := by
  -- The cases are the checks in the order in which they are made.
  rcases Nat.eq_zero_or_pos size with rfl | positive
  · exact iff_of_false (failsWith_copySlice_zero output).not_passes (by simp)
  rcases Nat.lt_or_ge size output.length with room | small
  · rcases Nat.lt_or_ge cursor.available size with short | fits
    · have fails := failsWith_copySlice_short positive room valid short
      exact iff_of_false fails.not_passes fun passes => absurd passes.1.2.2 (Nat.not_le.mpr short)
    · have ran := run_copySlice positive room valid fits
      exact (passes_iff_of_took ran).trans (and_iff_right ⟨positive, room, fits⟩).symm
  · have fails : (copySlice output size).FailsWith cursor _ :=
      failsWith_copySlice_small positive small
    exact iff_of_false fails.not_passes fun passes => absurd passes.1.2.1 (Nat.not_lt.mpr small)

/-! ## Copies up to an octet -/

theorem failsWith_copyUntil_nil (stop : UInt8) :
    (copyUntil [] stop).FailsWith cursor (.invalidArgument "empty output buffer") :=
  failsWith_of_refused (Scan.run_map_of_refused (Scan.run_copyUntil_nil rfl))

theorem failsWith_copyUntil_absent (nonempty : output ≠ []) (valid : cursor.Valid)
    (absent : stop ∉ cursor.remaining.take (min output.length cursor.available)) :
    (copyUntil output stop).FailsWith cursor
      (.parse "read substr until char" cursor.position) := by
  have validStart : ((copyUntil output stop).start cursor).cursor.Valid := valid
  have scanned := Scan.run_copyUntil stop nonempty validStart
  have notFound :
      Bytes.offsetOf? stop (Scan.searched ((copyUntil output stop).start cursor)) = none :=
    Bytes.offsetOf?_eq_none_iff.mpr absent
  rw [notFound] at scanned
  exact failsWith_of_missed (Scan.run_map_of_missed scanned)

/-- The octets before the stop octet are copied if the search reaches it. -/
theorem run_copyUntil (nonempty : output ≠ []) (valid : cursor.Valid)
    (found : Bytes.offsetOf? stop
      (cursor.remaining.take (min output.length cursor.available)) = some index) :
    (copyUntil output stop).run cursor =
      .took (.count index) (index + 1)
        { cursor := cursor, output := Scan.overwrite output (cursor.remaining.take index) } [] := by
  have validStart : ((copyUntil output stop).start cursor).cursor.Valid := valid
  have scanned := Scan.run_copyUntil stop nonempty validStart
  have same : Bytes.offsetOf? stop (Scan.searched ((copyUntil output stop).start cursor)) =
      some index := found
  rw [same] at scanned
  exact Scan.run_map_of_took scanned

theorem passes_copyUntil_iff_offsetOf? (valid : cursor.Valid) :
    (copyUntil output stop).Passes cursor reply count ↔
      ∃ index, Bytes.offsetOf? stop
          (cursor.remaining.take (min output.length cursor.available)) = some index ∧
        reply = .count index ∧ count = index + 1 := by
  by_cases empty : output = []
  · subst empty
    refine iff_of_false (failsWith_copyUntil_nil stop).not_passes ?_
    simp
  cases found : Bytes.offsetOf? stop
      (cursor.remaining.take (min output.length cursor.available)) with
  | none =>
      have fails := failsWith_copyUntil_absent empty valid
        (Bytes.offsetOf?_eq_none_iff.mp found)
      exact iff_of_false fails.not_passes (by simp)
  | some index =>
      rw [passes_iff_of_took (run_copyUntil empty valid found)]
      simp

end Call

namespace Cursor

variable {cursor : Cursor}

theorem copiesSlice (valid : cursor.Valid) (output : Bytes) (size : Nat) :
    cursor.CopiesSlice output size where
  passes_iff _ _ := Call.passes_copySlice_iff valid
  copies positive room fits :=
    Call.copies_of_took fits room (Call.run_copySlice positive room valid fits)
  empty := by
    rintro rfl
    exact Call.failsWith_copySlice_zero output
  small := Call.failsWith_copySlice_small
  short positive room := Call.failsWith_copySlice_short positive room valid

theorem copiesUntil (valid : cursor.Valid) (output : Bytes) (stop : UInt8) :
    cursor.CopiesUntil output stop where
  succeeds_iff := by
    simp only [Call.passes_copyUntil_iff_offsetOf? valid]
    constructor
    · rintro ⟨reply, count, index, found, -⟩
      by_contra absent
      rw [Bytes.offsetOf?_eq_none_iff.mpr absent] at found
      cases found
    · intro present
      have found := mt Bytes.offsetOf?_eq_none_iff.mp (not_not_intro present)
      obtain ⟨index, found⟩ := Option.ne_none_iff_exists'.mp found
      exact ⟨_, _, index, found, rfl, rfl⟩
  passes_iff _ _ := by
    simp only [Call.passes_copyUntil_iff_offsetOf? valid, Bytes.offsetOf?_eq_some_iff_isLeast]
  copies := by
    intro index count passes
    obtain ⟨found, offsetFound, replyEq, -⟩ :=
      (Call.passes_copyUntil_iff_offsetOf? valid).mp passes
    cases replyEq
    obtain ⟨-, -, inside⟩ := Bytes.split_of_offsetOf? offsetFound
    rw [List.length_take, length_remaining] at inside
    have room : index < output.length := by omega
    have nonempty : output ≠ [] := List.ne_nil_of_length_pos (Nat.zero_lt_of_lt room)
    exact Call.copies_of_took (by omega) room (Call.run_copyUntil nonempty valid offsetFound)
  empty := by
    rintro rfl
    exact Call.failsWith_copyUntil_nil stop
  absent nonempty := Call.failsWith_copyUntil_absent nonempty valid

/-- The copies succeed where the text and the buffer allow it, and then write the octets, a zero
octet within the buffer and nothing else.  Where they fail, they write nothing. -/
theorem copies_end_with_zero (reachable : cursor.Reachable) (output : Bytes) :
    (∀ size, cursor.CopiesSlice output size) ∧ ∀ stop, cursor.CopiesUntil output stop :=
  ⟨copiesSlice reachable.valid output, copiesUntil reachable.valid output⟩

/-- In the text `ABCD,` the comma is reached with a buffer of five octets and not with one of four,
and a slice that leaves no room for the zero octet is refused although the text has it. -/
theorem copies_end_with_zero_full :
    let cursor : Cursor :=
      { bytes := [0x41, 0x42, 0x43, 0x44, 0x2c], position := 0, options := {} }
    let buffer (size : Nat) : Bytes := List.replicate size 0xff
    cursor.Reachable ∧
      (Call.copyUntil (buffer 5) 0x2c).Passes cursor (.count 4) 5 ∧
      (Call.copyUntil (buffer 5) 0x2c).Copies cursor 4 ∧
      (Call.copyUntil (buffer 4) 0x2c).FailsWith cursor (.parse "read substr until char" 0) ∧
      ((Call.copySlice (buffer 5) 3).run cursor).state.output = [0x41, 0x42, 0x43, 0, 0xff] ∧
      (Call.copySlice (buffer 4) 4).FailsWith cursor
        (.invalidArgument "output buffer too small") := by
  intro cursor buffer
  have reachable : cursor.Reachable := .ofText (by decide) (by decide) {}
  have five := copies_end_with_zero reachable (buffer 5)
  have four := copies_end_with_zero reachable (buffer 4)
  have least : IsLeast {index : Nat |
      (cursor.remaining.take (min (buffer 5).length cursor.available))[index]? = some 0x2c} 4 :=
    Bytes.offsetOf?_eq_some_iff_isLeast.mp (by decide)
  have passes := ((five.2 0x2c).passes_iff (.count 4) 5).mpr ⟨4, least, rfl, rfl⟩
  have slice := (five.1 3).copies (by decide) (by decide) (by decide)
  exact ⟨reachable, passes, (five.2 0x2c).copies 4 5 passes,
    (four.2 0x2c).absent (by decide) (by decide), slice.output,
    (four.1 4).small (by decide) (by decide)⟩

end Cursor

end ByteCursor
