import ByteCursor.Status

/-!
# What a status knows

The bits of the kinds are apart, and recording only sets bits.  So a status contains a kind if an
error of this kind was recorded, and any results with the same kinds leave the same status.
-/

namespace ByteCursor

namespace Status

variable {α : Type} {status : Status}

/-- Remember how several calls ended. -/
def recordAll (status : Status) (results : List (Except ReadError α)) : Status :=
  results.foldl record status

/-- The kinds of the errors among results. -/
def kinds (results : List (Except ReadError α)) : List ErrorKind :=
  results.filterMap fun
    | .ok _ => none
    | .error error => some error.kind

/-- The bits of several kinds. -/
def mask (kinds : List ErrorKind) : UInt8 := kinds.foldr (fun kind bits => bit kind ||| bits) 0

theorem mem_kinds {results : List (Except ReadError α)} {kind : ErrorKind} :
    kind ∈ kinds results ↔ ∃ error, .error error ∈ results ∧ error.kind = kind := by
  rw [kinds, List.mem_filterMap]
  constructor
  · rintro ⟨result, member, found⟩
    cases result with
    | ok value => cases found
    | error error => exact ⟨error, member, Option.some.inj found⟩
  · rintro ⟨error, member, rfl⟩
    exact ⟨.error error, member, rfl⟩

/-! ## Bits -/

theorem or_and_distrib (left right bits : UInt8) :
    (left ||| right) &&& bits = (left &&& bits) ||| (right &&& bits) :=
  UInt8.toBitVec_inj.mp BitVec.and_or_distrib_right

/-- The bits of two kinds are apart. -/
theorem bit_and_bit_eq_zero_iff (first second : ErrorKind) :
    bit first &&& bit second = 0 ↔ first ≠ second := by
  cases first <;> cases second <;> decide

theorem bit_ne_zero (kind : ErrorKind) : bit kind ≠ 0 := by
  cases kind <;> decide

theorem mask_absorbs {kinds : List ErrorKind} {kind : ErrorKind} (member : kind ∈ kinds) :
    bit kind ||| mask kinds = mask kinds := by
  induction member with
  | head rest => rw [mask, List.foldr_cons, ← UInt8.or_assoc, UInt8.or_self]
  | @tail other rest _ ih =>
      change bit kind ||| (bit other ||| mask rest) = bit other ||| mask rest
      rw [← UInt8.or_assoc, UInt8.or_comm (bit kind), UInt8.or_assoc, ih]

/-- More kinds have all the bits of fewer. -/
theorem mask_or_mask {fewer more : List ErrorKind} (subset : fewer ⊆ more) :
    mask fewer ||| mask more = mask more := by
  induction fewer with
  | nil => exact UInt8.zero_or
  | cons kind rest ih =>
      rw [List.cons_subset] at subset
      change (bit kind ||| mask rest) ||| mask more = mask more
      rw [UInt8.or_assoc, ih subset.2, mask_absorbs subset.1]

theorem mask_congr {first second : List ErrorKind} (same : ∀ kind, kind ∈ first ↔ kind ∈ second) :
    mask first = mask second := by
  have there : first ⊆ second := fun kind => (same kind).mp
  have back : second ⊆ first := fun kind => (same kind).mpr
  rw [← mask_or_mask back, UInt8.or_comm, mask_or_mask there]

/-! ## Recording -/

theorem contains_note {error : ReadError} {kind : ErrorKind} :
    (status.note error).contains kind = true ↔
      status.contains kind = true ∨ error.kind = kind := by
  rw [contains, contains, note, bne_iff_ne, bne_iff_ne, or_and_distrib, Ne, UInt8.or_eq_zero_iff,
    bit_and_bit_eq_zero_iff, Decidable.not_and_iff_not_or_not, Ne, Decidable.not_not]

theorem isOk_note {error : ReadError} : (status.note error).isOk = false := by
  rw [isOk, note, beq_eq_false_iff_ne, Ne, UInt8.or_eq_zero_iff]
  exact fun clear => bit_ne_zero error.kind clear.2

/-- A status without any error contains no kind. -/
theorem not_contains_empty (kind : ErrorKind) : ({} : Status).contains kind = false := by
  cases kind <;> rfl

theorem recordAll_append (first second : List (Except ReadError α)) :
    status.recordAll (first ++ second) = (status.recordAll first).recordAll second :=
  List.foldl_append

/-- Recording sets the bits of the kinds. -/
theorem flags_recordAll (results : List (Except ReadError α)) :
    (status.recordAll results).flags = status.flags ||| mask (kinds results) := by
  induction results generalizing status with
  | nil => exact UInt8.or_zero.symm
  | cons result rest ih =>
      cases result with
      | ok value => exact ih
      | error error =>
          change ((status.note error).recordAll rest).flags = _
          rw [ih, note, UInt8.or_assoc]
          rfl

theorem contains_recordAll {results : List (Except ReadError α)} {kind : ErrorKind} :
    (status.recordAll results).contains kind = true ↔
      status.contains kind = true ∨ ∃ error, .error error ∈ results ∧ error.kind = kind := by
  induction results generalizing status with
  | nil => simp [recordAll]
  | cons result rest ih =>
      cases result with
      | ok value =>
          change (status.recordAll rest).contains kind = true ↔ _
          rw [ih]
          simp
      | error error =>
          change ((status.note error).recordAll rest).contains kind = true ↔ _
          rw [ih, contains_note]
          simp [or_assoc]

theorem isOk_recordAll {results : List (Except ReadError α)} :
    (status.recordAll results).isOk = true ↔
      status.isOk = true ∧ ∀ error, .error error ∉ results := by
  induction results generalizing status with
  | nil => simp [recordAll]
  | cons result rest ih =>
      cases result with
      | ok value =>
          change (status.recordAll rest).isOk = true ↔ _
          rw [ih]
          simp
      | error error =>
          change ((status.note error).recordAll rest).isOk = true ↔ _
          rw [ih, isOk_note]
          apply iff_of_false
          · exact fun clear => Bool.false_ne_true clear.1
          · exact fun clear => clear.2 error List.mem_cons_self

/-- Results with the same kinds leave the same status. -/
theorem recordAll_congr {first second : List (Except ReadError α)}
    (same : ∀ kind, kind ∈ kinds first ↔ kind ∈ kinds second) :
    status.recordAll first = status.recordAll second := by
  have flags : (status.recordAll first).flags = (status.recordAll second).flags := by
    rw [flags_recordAll, flags_recordAll, mask_congr same]
  exact congrArg Status.mk flags

/-- The order of the results does not matter. -/
theorem recordAll_perm {first second : List (Except ReadError α)} (perm : first.Perm second) :
    status.recordAll first = status.recordAll second :=
  recordAll_congr fun _ => (perm.filterMap _).mem_iff

/-- Results that occur again do not matter. -/
theorem recordAll_append_of_subset {first second : List (Except ReadError α)}
    (subset : second ⊆ first) : status.recordAll (first ++ second) = status.recordAll first := by
  apply recordAll_congr
  intro kind
  rw [mem_kinds, mem_kinds]
  constructor
  · rintro ⟨error, member, kindEq⟩
    exact ⟨error, (List.mem_append.mp member).elim id (subset ·), kindEq⟩
  · rintro ⟨error, member, kindEq⟩
    exact ⟨error, List.mem_append_left second member, kindEq⟩

/-- Successes do not matter. -/
theorem recordAll_filter (results : List (Except ReadError α)) :
    status.recordAll (results.filter fun result => !result.isOk) = status.recordAll results := by
  apply recordAll_congr
  intro kind
  simp [mem_kinds, List.mem_filter, Except.isOk, Except.toBool]

end Status

end ByteCursor
