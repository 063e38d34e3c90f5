import ByteCursor.Proofs.ByteOrder
import ByteCursor.Raw
import Mathlib.Tactic.Ring

/-!
# Binary formats

A format holds the integers of its width, and reading the octets of such an integer gives it back.
The octets of an integer without a sign fall into two halves, and the byte order tells which of them
is the upper one.
-/

namespace ByteCursor

namespace ByteOrder

/-- The number of two halves in the order in which they stand, where so many numbers fit a half. -/
def join : ByteOrder → (size : Int) → (first second : Int) → Int
  | big, size, first, second => first * size + second
  | little, size, first, second => first + size * second

/-- Octets without a sign are read half by half. -/
theorem decode_append (order : ByteOrder) {first second : Bytes}
    (same : first.length = second.length) :
    order.decode false (first ++ second) =
      order.join (capacity first.length) (order.decode false first)
        (order.decode false second) := by
  have unsigned (bytes : Bytes) : order.decode false bytes = value (order.arrange bytes) := rfl
  rw [unsigned, unsigned, unsigned]
  cases order with
  | big =>
      rw [arrange, List.reverse_append, value_append, List.length_reverse, ← same, join, arrange,
        arrange]
      push_cast
      ring
  | little =>
      rw [arrange, value_append, join, arrange, arrange]
      push_cast
      rfl

end ByteOrder

namespace BinaryFormat

/-- The number of bits of an integer. -/
def bits (format : BinaryFormat) : Nat := 8 * format.width.octets

/-- The integer lies in the range of the format. -/
def Holds (format : BinaryFormat) (value : Int) : Prop :=
  if format.isSigned then -2 ^ (format.bits - 1) ≤ value ∧ value < 2 ^ (format.bits - 1)
  else 0 ≤ value ∧ value < 2 ^ format.bits

instance (format : BinaryFormat) (value : Int) : Decidable (format.Holds value) :=
  inferInstanceAs (Decidable (if format.isSigned then _ ∧ _ else _ ∧ _))

/-- The integers of the type stand in the format, if their octets have the order.  A single octet
has no order. -/
structure IsOf (format : BinaryFormat) (type : IntType) (order : ByteOrder) : Prop where
  width : format.width.octets = type.octets
  isSigned : format.isSigned = type.isSigned
  order : type.octets ≠ 1 → format.order = order

/-- Formats without a sign, the second of half the width of the first. -/
structure HasHalf (full half : BinaryFormat) : Prop where
  unsigned : full.isSigned = false
  half_unsigned : half.isSigned = false
  width : full.width.octets = half.width.octets + half.width.octets
  order : half.width.octets ≠ 1 → half.order = full.order

variable {format full half : BinaryFormat}

theorem natCast_capacity (format : BinaryFormat) :
    ((ByteOrder.capacity format.width.octets : Nat) : Int) = 2 ^ format.bits := by
  rw [ByteOrder.natCast_capacity, bits, pow_mul]
  rfl

/-- The range of a format with a sign reaches half of its integers down and up. -/
theorem pow_bits_eq (format : BinaryFormat) :
    (2 : Int) ^ format.bits = 2 ^ (format.bits - 1) * 2 := by
  rw [bits]
  cases format.width <;> rfl

/-- Integers of the format are read by their octets. -/
theorem readsIntegers_decode (format : BinaryFormat) :
    format.order.ReadsIntegers format.width.octets format.Holds format.decode where
  holds := by
    intro bytes length
    have capacity := format.natCast_capacity
    have below := ByteOrder.value_lt (format.order.arrange bytes)
    rw [ByteOrder.length_arrange, length] at below
    rw [Holds, decode, ByteOrder.decode, length]
    split
    next =>
        have positive : 0 < ByteOrder.capacity format.width.octets := Nat.zero_lt_of_lt below
        have lower := Int.le_bmod (x := ByteOrder.value (format.order.arrange bytes)) positive
        have upper := Int.bmod_lt (x := ByteOrder.value (format.order.arrange bytes)) positive
        have halves := format.pow_bits_eq
        constructor <;> omega
    next => exact ⟨Int.natCast_nonneg _, capacity ▸ Int.ofNat_lt.mpr below⟩
  places := fun _ found => ByteOrder.octetAt_decode format.order _ found

/-- An integer in the range is determined by its octets. -/
theorem eq_of_octetAt {first second : Int} (holds : format.Holds first)
    (holds' : format.Holds second)
    (same : ∀ index < format.width.octets,
      ByteOrder.octetAt first index = ByteOrder.octetAt second index) :
    first = second := by
  have residue := ByteOrder.emod_eq_of_octetAt same
  rw [natCast_capacity] at residue
  have close : |first - second| < 2 ^ format.bits := by
    have halves := format.pow_bits_eq
    rw [Holds] at holds holds'
    rw [abs_lt]
    split at holds
    next signed =>
        rw [if_pos signed] at holds'
        omega
    next unsigned =>
        rw [if_neg unsigned] at holds'
        omega
  exact Int.sub_eq_zero.mp (Int.eq_zero_of_abs_lt_dvd (Int.ModEq.dvd residue.symm) close)

/-- An integer in the range that is written is read back. -/
theorem decode_encode {value : Int} (holds : format.Holds value) :
    format.decode (format.encode value) = value := by
  have reads := format.readsIntegers_decode
  have writes := ByteOrder.writesIntegers_encode format.order format.width.octets
  apply eq_of_octetAt (reads.holds (writes.length value)) holds
  intro index inside
  exact reads.octetAt_write writes value inside

/-- Formats that differ in the order of a single octet read it alike. -/
theorem decode_eq_of_order {order : ByteOrder} {bytes : Bytes}
    (same : bytes.length ≠ 1 → format.order = order) :
    format.decode bytes = order.decode format.isSigned bytes := by
  rw [decode]
  by_cases single : bytes.length = 1
  · obtain ⟨byte, rfl⟩ := List.length_eq_one_iff.mp single
    exact ByteOrder.decode_singleton _ _ _ _
  · rw [same single]

/-- An integer without a sign is read half by half. -/
theorem HasHalf.decode_append (hasHalf : full.HasHalf half) {first second : Bytes}
    (firstLength : first.length = half.width.octets)
    (secondLength : second.length = half.width.octets) :
    full.decode (first ++ second) =
      full.order.join (2 ^ half.bits) (half.decode first) (half.decode second) := by
  have readHalf {bytes : Bytes} (length : bytes.length = half.width.octets) :
      half.decode bytes = full.order.decode false bytes := by
    rw [← hasHalf.half_unsigned]
    apply decode_eq_of_order
    rw [length]
    exact hasHalf.order
  rw [readHalf firstLength, readHalf secondLength, decode, hasHalf.unsigned,
    ByteOrder.decode_append _ (firstLength.trans secondLength.symm), firstLength, natCast_capacity]

end BinaryFormat

end ByteCursor
